import Mathlib.Data.Set.Card
import ReversePolish.Catalog
import ReversePolish.Proofs.Text.Bytes

/-!
# A catalog is determined by what is found in it

An entry of a catalog is found under its own label, because no other entry has that label
(`find?_eq_some_iff`).  So the listing of the labels, their number and whether there are any
can all be told from what is found under each label.

The labels ascend strictly.  Two ascending lists with the same members are equal, and
therefore two catalogs that find something under the same labels list the same labels in the
same order (`labels_eq_labels_iff`), however they came about.
-/

namespace ReversePolish.Catalog

variable {α : Type} {label : α → String} {c d : Catalog α label}

/-! ## What is found -/

/-- **What is found under a label is the entry that has it.** -/
theorem find?_eq_some_iff {name : String} {a : α} :
    c.find? name = some a ↔ a ∈ c.entries ∧ label a = name := by
  constructor
  · intro h
    exact ⟨List.mem_of_find?_eq_some h, label_of_find?_eq_some h⟩
  · rintro ⟨ha, rfl⟩
    obtain ⟨before, after, hsplit⟩ := List.append_of_mem ha
    have hascending := c.ascending
    rw [hsplit, List.pairwise_append] at hascending
    rw [find?, hsplit, List.find?_append, List.find?_eq_none.2 ?_, Option.none_or,
      List.find?_cons_of_pos (by simp)]
    intro x hx
    have hlt : label x < label a := hascending.2.2 x hx a List.mem_cons_self
    simpa using String.ne_of_lt hlt

theorem contains_iff {name : String} : c.contains name ↔ ∃ a, c.find? name = some a :=
  Option.isSome_iff_exists

theorem find?_eq_none_iff {name : String} : c.find? name = none ↔ ¬ c.contains name := by
  rw [contains, Bool.not_eq_true, Option.isSome_eq_false_iff, Option.isNone_iff_eq_none]

/-! ## The labels -/

theorem mem_labels_iff {name : String} : name ∈ c.labels ↔ c.contains name := by
  simp only [labels, List.mem_map, contains_iff, find?_eq_some_iff]

/-- The labels ascend strictly. -/
theorem pairwise_labels (c : Catalog α label) : c.labels.Pairwise (· < ·) :=
  List.pairwise_map.2 c.ascending

/-- No label is listed twice. -/
theorem nodup_labels (c : Catalog α label) : c.labels.Nodup :=
  c.pairwise_labels.imp fun h => String.ne_of_lt h

/-- The labels ascend strictly by their bytes, too. -/
theorem pairwise_textBytes_labels (c : Catalog α label) :
    (c.labels.map textBytes).Pairwise (· < ·) :=
  List.pairwise_map.2 (c.pairwise_labels.imp textBytes_lt_textBytes)

/-- The size is the number of labels under which something is found. -/
theorem size_eq_ncard (c : Catalog α label) : c.size = {name | c.contains name}.ncard := by
  have hset : {name | c.contains name} = (c.labels.toFinset : Set String) := by
    ext name
    rw [Set.mem_ofPred_eq, Finset.mem_coe, List.mem_toFinset, mem_labels_iff]
  rw [hset, Set.ncard_coe_finset, List.toFinset_card_of_nodup c.nodup_labels, labels,
    List.length_map, size]

theorem isEmpty_iff : c.isEmpty ↔ ∀ name, ¬ c.contains name := by
  have hlabels : c.isEmpty ↔ c.labels = [] := by
    rw [isEmpty, List.isEmpty_iff, labels, List.map_eq_nil_iff]
  rw [hlabels, List.eq_nil_iff_forall_not_mem]
  simp only [mem_labels_iff]

/-- **The labels are told by which names are found.** -/
theorem labels_eq_labels_iff : c.labels = d.labels ↔ ∀ name, c.contains name ↔ d.contains name := by
  constructor
  · intro h name
    rw [← mem_labels_iff, h, mem_labels_iff]
  · intro h
    have hperm : c.labels.Perm d.labels := by
      refine (List.perm_ext_iff_of_nodup c.nodup_labels d.nodup_labels).2 fun name => ?_
      rw [mem_labels_iff, h name, mem_labels_iff]
    exact hperm.eq_of_pairwise (fun x y _ _ hxy hyx => absurd hyx (String.lt_asymm hxy))
      c.pairwise_labels d.pairwise_labels

end ReversePolish.Catalog
