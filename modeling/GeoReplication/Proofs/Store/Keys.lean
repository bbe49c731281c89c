import GeoReplication.Store.Table

/-!
# Proofs/Store/Keys — which keys are taken

What each operation on tables does to `contains`.
-/

namespace GeoReplication.Store

theorem lookupRow_map {κ α β : Type} [DecidableEq κ] (g : α → β) (k : κ) :
    ∀ rows : List (κ × α),
      lookupRow k (rows.map fun r => (r.1, g r.2)) = (lookupRow k rows).map g
  | [] => rfl
  | (k', a) :: rows => by
      have ih := lookupRow_map g k rows
      by_cases hk : k' = k <;> simp [lookupRow, hk, ih]

namespace Table

variable {κ α : Type} [DecidableEq κ] {t : Table κ α} {k k' : κ}

theorem contains_iff_exists : t.contains k = true ↔ ∃ a, t.get? k = some a :=
  Option.isSome_iff_exists

theorem contains_insert {a : α} :
    (t.insert k a).contains k' = true ↔ t.contains k' = true ∨ k' = k := by
  rw [contains, get?_insert, contains]
  by_cases hk : k' = k <;> simp [hk]

theorem contains_filter {p : κ → Bool} :
    (t.filter fun k _ => p k).contains k' = true ↔ t.contains k' = true ∧ p k' = true := by
  rw [contains, get?_filter, contains]
  cases t.get? k' <;> simp [Option.filter]

theorem contains_filter_ne {β : Type} [DecidableEq β] {f : κ → β} {b : β} :
    (t.filter fun k _ => decide (f k ≠ b)).contains k' = true ↔
      t.contains k' = true ∧ f k' ≠ b := by
  rw [contains_filter (p := fun k => decide (f k ≠ b)), decide_eq_true_iff]

theorem contains_erase :
    (t.erase k).contains k' = true ↔ t.contains k' = true ∧ k' ≠ k := contains_filter_ne (f := id)

theorem contains_upsert {new : α} {f : α → α} :
    (t.upsert k new f).contains k' = true ↔ t.contains k' = true ∨ k' = k := by
  rw [contains, get?_upsert, contains]
  by_cases hk : k' = k <;> simp [hk]

/-- A row whose key is taken changes nothing. -/
theorem insert_of_contains (h : t.contains k = true) (a : α) : t.insert k a = t :=
  dif_pos (contains_iff.mp h)

end Table

namespace Numbered

variable {α : Type} {t : Numbered α} {id id' : Int}

theorem contains_iff_exists : t.contains id = true ↔ ∃ a, t.get? id = some a :=
  Option.isSome_iff_exists

/-- What is seen of the rows decides what is seen of each. -/
theorem map_get?_congr {β : Type} {t' : Numbered α} {g : α → β}
    (h : t'.rows.map (fun r => (r.1, g r.2)) = t.rows.map fun r => (r.1, g r.2)) (id : Int) :
    (t'.get? id).map g = (t.get? id).map g := by
  rw [get?, get?, ← lookupRow_map, ← lookupRow_map, h]

theorem contains_iff_mem : t.contains id = true ↔ id ∈ t.rows.map Prod.fst := by
  simp [contains_iff_exists, get?_eq_some_iff]

theorem contains_insert {a : α} :
    (t.insert a).contains id = true ↔ t.contains id = true ∨ id = t.next := by
  rw [contains, get?_insert, contains]
  by_cases hid : id = t.next <;> simp [hid]

theorem contains_modify {f : α → α} : (t.modify id' f).contains id = t.contains id := by
  rw [contains, get?_modify, contains]
  split <;> simp

theorem contains_erase :
    (t.erase id').contains id = true ↔ t.contains id = true ∧ id ≠ id' := by
  rw [contains, get?_erase, contains]
  by_cases hid : id = id' <;> simp [hid]

theorem not_contains_next : ¬ t.contains t.next = true := by
  rw [contains, get?_next]
  exact Bool.false_ne_true

end Numbered

end GeoReplication.Store
