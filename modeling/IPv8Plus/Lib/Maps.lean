import Mathlib

/-!
# Tables

What a table holds after an update, by equality of the keys.
-/

namespace Lib

variable {α β : Type} {cmp : α → α → Ordering} [Std.TransCmp cmp] [Std.LawfulEqCmp cmp] [DecidableEq α]
  {t : Std.ExtTreeMap α β cmp} {a b : α} {v : β}

lemma getElem?_insert_ite : (t.insert a v)[b]? = if a = b then some v else t[b]? := by
  rw [Std.ExtTreeMap.getElem?_insert]
  exact if_congr Std.LawfulEqCmp.compare_eq_iff_eq rfl rfl

lemma getElem?_erase_ite : (t.erase a)[b]? = if a = b then none else t[b]? := by
  rw [Std.ExtTreeMap.getElem?_erase]
  exact if_congr Std.LawfulEqCmp.compare_eq_iff_eq rfl rfl

end Lib
