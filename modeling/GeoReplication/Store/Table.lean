/-!
# Store/Table — rows under keys

`Table κ α` holds rows of type `α` under keys of type `κ`, no key twice, in the order in which they
came.  `Numbered α` is a table that hands out its keys itself: they are positive, grow with every
row, and `last` remembers the largest one ever given, so that no key comes back after its row is
gone.

Each operation has one lemma that says what it does to the look-up `get?`.
-/

namespace GeoReplication.Store

/-! ## Rows under keys, as plain lists -/

/-- The row under a key. -/
def lookupRow {κ α : Type} [DecidableEq κ] (k : κ) : List (κ × α) → Option α
  | [] => none
  | (k', a) :: rows => if k' = k then some a else lookupRow k rows

/-- Rows changed in place where `p` holds. -/
def changeRows {κ α : Type} (p : κ → α → Bool) (f : α → α) (rows : List (κ × α)) : List (κ × α) :=
  rows.map fun (k, a) => (k, if p k a then f a else a)

@[simp] theorem keys_changeRows {κ α : Type} (p : κ → α → Bool) (f : α → α)
    (rows : List (κ × α)) : (changeRows p f rows).map Prod.fst = rows.map Prod.fst := by
  simp [changeRows, List.map_map, Function.comp_def]

theorem lookupRow_eq_none_iff {κ α : Type} [DecidableEq κ] {k : κ} :
    ∀ {rows : List (κ × α)}, lookupRow k rows = none ↔ k ∉ rows.map Prod.fst
  | [] => by simp [lookupRow]
  | (k', a) :: rows => by
      by_cases h : k' = k
      · subst h; simp [lookupRow]
      · simp only [lookupRow, h, if_false, lookupRow_eq_none_iff, List.map_cons, List.mem_cons,
          not_or]
        exact ⟨fun hn => ⟨fun e => h e.symm, hn⟩, fun hn => hn.2⟩

theorem lookupRow_append {κ α : Type} [DecidableEq κ] (k : κ) :
    ∀ (xs ys : List (κ × α)), lookupRow k (xs ++ ys) = (lookupRow k xs).or (lookupRow k ys)
  | [], ys => by simp [lookupRow]
  | (k', a) :: xs, ys => by
      by_cases h : k' = k <;> simp [lookupRow, h, lookupRow_append k xs ys]

theorem lookupRow_changeRows {κ α : Type} [DecidableEq κ] (p : κ → α → Bool) (f : α → α) (k : κ) :
    ∀ (rows : List (κ × α)),
      lookupRow k (changeRows p f rows) = (lookupRow k rows).map fun a => if p k a then f a else a
  | [] => rfl
  | (k', a) :: rows => by
      by_cases h : k' = k
      · subst h; simp [changeRows, lookupRow]
      · have ih := lookupRow_changeRows p f k rows
        simp only [changeRows] at ih
        simp [changeRows, lookupRow, h, ih]

theorem mem_of_lookupRow {κ α : Type} [DecidableEq κ] {k : κ} {a : α} :
    ∀ {rows : List (κ × α)}, lookupRow k rows = some a → (k, a) ∈ rows
  | [], h => by simp [lookupRow] at h
  | (k', b) :: rows, h => by
      by_cases hk : k' = k
      · subst hk
        simp only [lookupRow, if_true, Option.some.injEq] at h
        subst h
        exact List.mem_cons_self
      · simp only [lookupRow, hk, if_false] at h
        exact List.mem_cons_of_mem _ (mem_of_lookupRow h)

theorem lookupRow_of_mem {κ α : Type} [DecidableEq κ] {k : κ} {a : α} :
    ∀ {rows : List (κ × α)}, (rows.map Prod.fst).Nodup → (k, a) ∈ rows → lookupRow k rows = some a
  | [], _, h => by simp at h
  | (k', b) :: rows, hn, h => by
      simp only [List.map_cons, List.nodup_cons] at hn
      rcases List.mem_cons.mp h with h | h
      · obtain ⟨rfl, rfl⟩ := Prod.mk.inj h
        simp [lookupRow]
      · have hk : k' ≠ k := by
          rintro rfl
          exact hn.1 (List.mem_map.mpr ⟨(k', a), h, rfl⟩)
        simp only [lookupRow, hk, if_false]
        exact lookupRow_of_mem hn.2 h

theorem lookupRow_filter {κ α : Type} [DecidableEq κ] (p : κ → α → Bool) (k : κ) :
    ∀ {rows : List (κ × α)}, (rows.map Prod.fst).Nodup →
      lookupRow k (rows.filter fun r => p r.1 r.2) = (lookupRow k rows).filter (p k)
  | [], _ => rfl
  | (k', a) :: rows, hn => by
      simp only [List.map_cons, List.nodup_cons] at hn
      have ih := lookupRow_filter p k hn.2
      by_cases hk : k' = k
      · subst hk
        have hnone : lookupRow k' rows = none := lookupRow_eq_none_iff.mpr hn.1
        by_cases hp : p k' a
        · simp [lookupRow, Option.filter, hp]
        · simp [lookupRow, Option.filter, hp, ih, hnone]
      · by_cases hp : p k' a <;> simp [lookupRow, hp, hk, ih]

/-! ## Tables -/

/-- Rows under keys, no key twice. -/
structure Table (κ α : Type) where
  rows : List (κ × α)
  nodup : (rows.map Prod.fst).Nodup

namespace Table

variable {κ α : Type} [DecidableEq κ]

/-- No rows. -/
def empty : Table κ α := ⟨[], List.nodup_nil⟩

/-- The row under a key. -/
def get? (t : Table κ α) (k : κ) : Option α := lookupRow k t.rows

/-- The key is taken. -/
def contains (t : Table κ α) (k : κ) : Bool := (t.get? k).isSome

/-- The rows on which `p` holds. -/
def filter (t : Table κ α) (p : κ → α → Bool) : Table κ α :=
  ⟨t.rows.filter fun r => p r.1 r.2,
    t.nodup.sublist (List.Sublist.map _ List.filter_sublist)⟩

/-- The table without the row under a key. -/
def erase (t : Table κ α) (k : κ) : Table κ α := t.filter fun k' _ => k' ≠ k

/-- The rows on which `p` holds, changed in place. -/
def change (t : Table κ α) (p : κ → α → Bool) (f : α → α) : Table κ α :=
  ⟨changeRows p f t.rows, by rw [keys_changeRows]; exact t.nodup⟩

/-- The row under a key, changed in place. -/
def modify (t : Table κ α) (k : κ) (f : α → α) : Table κ α := t.change (fun k' _ => k' = k) f

/-- A row more, at the end, unless its key is taken. -/
def insert (t : Table κ α) (k : κ) (a : α) : Table κ α :=
  if h : k ∈ t.rows.map Prod.fst then t
  else ⟨t.rows ++ [(k, a)], by
    rw [List.map_append, List.nodup_append]
    refine ⟨t.nodup, by simp, fun x hx y hy => ?_⟩
    simp only [List.map_cons, List.map_nil, List.mem_singleton] at hy
    rintro rfl
    exact h (hy ▸ hx)⟩

/-- A row under a key: the old one changed by `f`, or a new one at the end. -/
def upsert (t : Table κ α) (k : κ) (new : α) (f : α → α) : Table κ α :=
  if t.contains k then t.modify k f else t.insert k new

theorem contains_iff {t : Table κ α} {k : κ} : t.contains k = true ↔ k ∈ t.rows.map Prod.fst := by
  rw [contains, get?]
  by_cases h : k ∈ t.rows.map Prod.fst
  · have : lookupRow k t.rows ≠ none := fun hn => lookupRow_eq_none_iff.mp hn h
    simp [h, Option.isSome_iff_ne_none, this]
  · simp [lookupRow_eq_none_iff.mpr h, h]

@[simp] theorem get?_empty (k : κ) : (empty : Table κ α).get? k = none := rfl

theorem get?_filter (t : Table κ α) (p : κ → α → Bool) (k : κ) :
    (t.filter p).get? k = (t.get? k).filter (p k) := lookupRow_filter p k t.nodup

theorem get?_erase (t : Table κ α) (k k' : κ) :
    (t.erase k).get? k' = if k' = k then none else t.get? k' := by
  rw [erase, get?_filter]
  by_cases h : k' = k
  · subst h; cases t.get? k' <;> simp
  · cases t.get? k' <;> simp [h]

theorem get?_change (t : Table κ α) (p : κ → α → Bool) (f : α → α) (k : κ) :
    (t.change p f).get? k = (t.get? k).map fun a => if p k a then f a else a :=
  lookupRow_changeRows p f k t.rows

theorem get?_modify (t : Table κ α) (k k' : κ) (f : α → α) :
    (t.modify k f).get? k' = if k' = k then (t.get? k').map f else t.get? k' := by
  rw [modify, get?_change]
  by_cases h : k' = k
  · subst h; simp
  · cases t.get? k' <;> simp [h]

theorem get?_insert (t : Table κ α) (k k' : κ) (a : α) :
    (t.insert k a).get? k' = (t.get? k').or (if k' = k then some a else none) := by
  rw [insert]
  split
  · next h =>
      by_cases hk : k' = k
      · subst hk
        have hc : t.contains k' = true := contains_iff.mpr h
        rw [contains] at hc
        cases hg : t.get? k' with
        | none => rw [hg] at hc; simp at hc
        | some b => simp
      · simp [hk]
  · rw [get?, lookupRow_append]
    by_cases hk : k' = k
    · subst hk; simp [get?, lookupRow]
    · have hk' : k ≠ k' := fun e => hk e.symm
      simp [get?, lookupRow, hk, hk']

theorem get?_upsert (t : Table κ α) (k k' : κ) (new : α) (f : α → α) :
    (t.upsert k new f).get? k'
      = if k' = k then some ((t.get? k).elim new f) else t.get? k' := by
  rw [upsert]
  by_cases hk : k' = k
  · subst hk
    cases hg : t.get? k' with
    | none => simp [contains, hg, get?_insert]
    | some b => simp [contains, hg, get?_modify]
  · split
    · simp [get?_modify, hk]
    · simp [get?_insert, hk]

theorem get?_eq_some_iff {t : Table κ α} {k : κ} {a : α} : t.get? k = some a ↔ (k, a) ∈ t.rows :=
  ⟨mem_of_lookupRow, lookupRow_of_mem t.nodup⟩

end Table

/-! ## Tables that number their rows -/

/-- Rows under numbers handed out in ascending order; `last` is the largest ever handed out. -/
structure Numbered (α : Type) where
  rows : List (Int × α)
  last : Nat
  ascending : (rows.map Prod.fst).Pairwise (· < ·)
  bounded : ∀ r ∈ rows, 0 < r.1 ∧ r.1 ≤ last

namespace Numbered

variable {α : Type}

/-- No rows, and none ever. -/
def empty : Numbered α := ⟨[], 0, List.Pairwise.nil, by simp⟩

/-- The number the next row gets. -/
def next (t : Numbered α) : Int := (t.last : Int) + 1

theorem nodup (t : Numbered α) : (t.rows.map Prod.fst).Nodup :=
  t.ascending.imp fun h => by omega

/-- The row under a number. -/
def get? (t : Numbered α) (id : Int) : Option α := lookupRow id t.rows

/-- The number belongs to a row. -/
def contains (t : Numbered α) (id : Int) : Bool := (t.get? id).isSome

/-- A row more, under the next number. -/
def insert (t : Numbered α) (a : α) : Numbered α where
  rows := t.rows ++ [(t.next, a)]
  last := t.last + 1
  ascending := by
    rw [List.map_append, List.pairwise_append]
    refine ⟨t.ascending, by simp, fun x hx y hy => ?_⟩
    simp only [List.map_cons, List.map_nil, List.mem_singleton] at hy
    obtain ⟨r, hr, rfl⟩ := List.mem_map.mp hx
    have := (t.bounded r hr).2
    rw [hy, next]
    omega
  bounded := fun r hr => by
    rcases List.mem_append.mp hr with h | h
    · have := t.bounded r h
      omega
    · simp only [List.mem_singleton] at h
      subst h
      simp only [next]
      omega

/-- The rows on which `p` holds. -/
def filter (t : Numbered α) (p : Int → α → Bool) : Numbered α where
  rows := t.rows.filter fun r => p r.1 r.2
  last := t.last
  ascending := t.ascending.sublist (List.Sublist.map _ List.filter_sublist)
  bounded := fun r hr => t.bounded r (List.mem_filter.mp hr).1

/-- The table without the row under a number. -/
def erase (t : Numbered α) (id : Int) : Numbered α := t.filter fun id' _ => id' ≠ id

/-- The rows on which `p` holds, changed in place. -/
def change (t : Numbered α) (p : Int → α → Bool) (f : α → α) : Numbered α where
  rows := changeRows p f t.rows
  last := t.last
  ascending := by rw [keys_changeRows]; exact t.ascending
  bounded := fun r hr => by
    have h : r.1 ∈ (changeRows p f t.rows).map Prod.fst := List.mem_map.mpr ⟨r, hr, rfl⟩
    rw [keys_changeRows] at h
    obtain ⟨r', hr', he⟩ := List.mem_map.mp h
    rw [← he]
    exact t.bounded r' hr'

/-- The row under a number, changed in place. -/
def modify (t : Numbered α) (id : Int) (f : α → α) : Numbered α :=
  t.change (fun id' _ => id' = id) f

@[simp] theorem get?_empty (id : Int) : (empty : Numbered α).get? id = none := rfl

theorem get?_eq_some_iff {t : Numbered α} {id : Int} {a : α} :
    t.get? id = some a ↔ (id, a) ∈ t.rows := ⟨mem_of_lookupRow, lookupRow_of_mem t.nodup⟩

theorem get?_filter (t : Numbered α) (p : Int → α → Bool) (id : Int) :
    (t.filter p).get? id = (t.get? id).filter (p id) := lookupRow_filter p id t.nodup

theorem get?_erase (t : Numbered α) (id id' : Int) :
    (t.erase id).get? id' = if id' = id then none else t.get? id' := by
  rw [erase, get?_filter]
  by_cases h : id' = id
  · subst h; cases t.get? id' <;> simp
  · cases t.get? id' <;> simp [h]

theorem get?_change (t : Numbered α) (p : Int → α → Bool) (f : α → α) (id : Int) :
    (t.change p f).get? id = (t.get? id).map fun a => if p id a then f a else a :=
  lookupRow_changeRows p f id t.rows

theorem get?_modify (t : Numbered α) (id id' : Int) (f : α → α) :
    (t.modify id f).get? id' = if id' = id then (t.get? id').map f else t.get? id' := by
  rw [modify, get?_change]
  by_cases h : id' = id
  · subst h; simp
  · cases t.get? id' <;> simp [h]

/-- No row has the next number yet. -/
theorem get?_next (t : Numbered α) : t.get? t.next = none := by
  rw [get?, lookupRow_eq_none_iff]
  intro h
  obtain ⟨r, hr, he⟩ := List.mem_map.mp h
  have := (t.bounded r hr).2
  rw [he, next] at this
  omega

theorem get?_insert (t : Numbered α) (a : α) (id : Int) :
    (t.insert a).get? id = if id = t.next then some a else t.get? id := by
  change lookupRow id (t.rows ++ [(t.next, a)]) = _
  rw [lookupRow_append]
  by_cases h : id = t.next
  · subst h
    rw [show lookupRow t.next t.rows = none from t.get?_next]
    simp [lookupRow]
  · have h' : t.next ≠ id := fun e => h e.symm
    simp [lookupRow, h, h', get?]

end Numbered

end GeoReplication.Store
