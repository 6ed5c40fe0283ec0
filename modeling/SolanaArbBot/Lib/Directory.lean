import SolanaArbBot.Lib.HashMap

/-! A directory whose files hold one format, as it is read: for each name the value
the text stands for, or none where the text is not of the format. -/
namespace SolanaArbBot.Lib

abbrev Directory (F : Type) := HashMap String (Option F)

namespace Directory
variable {F : Type}

/-- Rename a file, replacing the target. Without the source nothing happens. -/
def rename (dir : Directory F) (source target : String) : Directory F :=
  match dir.get source with
  | some file => (dir.remove source).insert target file
  | none => dir

/-- What a write that does not finish may leave: the old file, or any text at all. -/
inductive Torn (dir : Directory F) (name : String) : Directory F → Prop
  | untouched : Torn dir name dir
  | partly (text : Option F) : Torn dir name (dir.insert name text)

theorem Torn.get_ne {dir dir' : Directory F} {name : String} (h : Torn dir name dir') {x : String}
    (hx : x ≠ name) : dir'.get x = dir.get x := by
  cases h with
  | untouched => rfl
  | partly text => rw [HashMap.get_insert, if_neg hx]

theorem get_rename_target {dir : Directory F} {source : String} {file : Option F}
    (h : dir.get source = some file) (target : String) :
    (dir.rename source target).get target = some file := by
  rw [rename, h]
  exact (HashMap.get_insert _ _ _ _).trans (if_pos rfl)

theorem get_rename_ne {dir : Directory F} {source target x : String} (hs : x ≠ source)
    (ht : x ≠ target) : (dir.rename source target).get x = dir.get x := by
  unfold rename
  split
  · rw [HashMap.get_insert, if_neg ht, HashMap.get_remove, if_neg hs]
  · rfl

end Directory
end SolanaArbBot.Lib
