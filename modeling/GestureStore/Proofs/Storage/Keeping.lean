/-
What a disk keeps while something else on it changes.

A change is harmless if every file stays what it is: directories may come to be, but no
file does and none is lost, a temporary file apart that cannot be removed (`SameFiles`).
A change is harmless apart from one path if that holds of everything to which the path
does not lead (`SameBut`).

Both are said in two ways, by places and by paths.  What stands at a place says nothing
yet of what a path leads to, for that depends on the directories it goes through; these
are the same before and after, or there are more of them.
-/
import GestureStore.Proofs.Storage.Replace

namespace GestureStore
namespace Disk

/-! ### Every file -/

end Disk
end GestureStore
