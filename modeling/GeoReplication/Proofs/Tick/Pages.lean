import GeoReplication.Tick.Source
import Mathlib.Data.List.TakeWhile

/-!
# Proofs/Tick/Pages — a source goes round once, page by page

`Source.toCome` is what a source has still to look up: the numbers behind it, and if it has not
passed the lowest number yet, those up to where it began.  Looking up a page moves a beginning of
this into the buffer (`buffer_append_toCome_accept`), whatever the size of the page and wherever the
source began, and brings the source closer to its last page (`lookups_accept_lt`).
-/

namespace GeoReplication

namespace Source

open Store

variable {s : Source} {all page rest : List Int} {size : Nat} {start id : Int}

theorem isDue_iff : s.isDue = true ↔ s.buffer = [] ∧ s.exhausted = false := by simp [isDue]

theorem isDone_iff : s.isDone = true ↔ s.exhausted = true ∧ s.buffer = [] := by simp [isDone]

/-- An empty source that no look-up is due for has none to come. -/
theorem exhausted_of_not_isDue (hdue : ¬ s.isDue = true) (hbuffer : s.buffer = []) :
    s.exhausted = true := by
  rw [isDue_iff, not_and, Bool.not_eq_false] at hdue
  exact hdue hbuffer

/-! ## Pages -/

/-- The numbers behind a number. -/
def behind (all : List Int) (id : Int) : List Int := all.filter (id < ·)

/-- A page of a list begins it, and is short only if it is all of it. -/
def IsPage (size : Nat) (page leg : List Int) : Prop :=
  ∃ rest, leg = page ++ rest ∧ (page.length < size → rest = [])

theorem isPage_limited (size : Nat) (leg : List Int) : IsPage size (limited size leg) leg := by
  rw [limited]
  split
  · refine ⟨leg.drop size, (List.take_append_drop size leg).symm, fun hshort => ?_⟩
    rw [List.length_take] at hshort
    exact List.drop_eq_nil_of_le (by omega)
  · exact ⟨[], (List.append_nil leg).symm, fun _ => rfl⟩

theorem behind_zero (hpos : ∀ id ∈ all, 0 < id) : behind all 0 = all :=
  List.filter_eq_self.mpr fun id hid => decide_eq_true (hpos id hid)

/-- What lies behind a number lies behind all smaller ones. -/
theorem behind_eq_filter {last : Int} (hlt : id < last) :
    behind all last = (behind all id).filter (last < ·) := by
  rw [behind, behind, List.filter_filter]
  refine List.filter_congr fun x _ => ?_
  rw [Bool.eq_self_and, decide_eq_true_eq, decide_eq_true_eq]
  exact fun hx => Int.lt_trans hlt hx

/-- Behind the last number of a page lies the rest. -/
theorem behind_getLast (hasc : all.Pairwise (· < ·)) (hleg : behind all id = page ++ rest) :
    behind all (page.getLast?.getD id) = rest := by
  rcases List.eq_nil_or_concat page with rfl | ⟨init, last, rfl⟩
  · exact hleg
  have hlast : id < last := by
    have hmem : last ∈ behind all id := by simp [hleg]
    exact of_decide_eq_true (List.mem_filter.mp hmem).2
  have hsorted : (init ++ [last] ++ rest).Pairwise (· < ·) := by
    rw [← List.concat_eq_append, ← hleg]
    exact hasc.sublist List.filter_sublist
  obtain ⟨hinit, -, hrest⟩ := List.pairwise_append.mp hsorted
  have hnone : (init ++ [last]).filter (last < ·) = [] := by
    refine List.filter_eq_nil_iff.mpr fun x hx => ?_
    rcases List.mem_append.mp hx with hx | hx
    · have := (List.pairwise_append.mp hinit).2.2 x hx last (List.mem_singleton_self last)
      simp only [decide_eq_true_eq]
      omega
    · simp [List.mem_singleton.mp hx]
  have hall : rest.filter (last < ·) = rest := by
    refine List.filter_eq_self.mpr fun x hx => decide_eq_true ?_
    exact hrest last (List.mem_append_right _ (List.mem_singleton_self last)) x hx
  rw [List.concat_eq_append] at hleg ⊢
  rw [List.getLast?_concat, Option.getD_some, behind_eq_filter hlast, hleg, List.filter_append,
    hnone, hall, List.nil_append]

/-! ## What is to come -/

/-- The numbers up to one; all of them, unless it is positive. -/
def upTo (all : List Int) (id : Int) : List Int := if 0 < id then all.takeWhile (· ≤ id) else all

theorem mem_takeWhile_le : ∀ {all : List Int}, all.Pairwise (· < ·) →
    (id ∈ all.takeWhile (· ≤ start) ↔ id ∈ all ∧ id ≤ start)
  | [], _ => by simp
  | x :: xs, hasc => by
      obtain ⟨hx, hxs⟩ := List.pairwise_cons.mp hasc
      by_cases hle : x ≤ start
      · have hcons : (x :: xs).takeWhile (· ≤ start) = x :: xs.takeWhile (· ≤ start) :=
          List.takeWhile_cons_of_pos (by simpa using hle)
        rw [hcons, List.mem_cons, List.mem_cons, mem_takeWhile_le hxs]
        refine ⟨fun h => ?_, fun h => h.1.imp_right fun hid => ⟨hid, h.2⟩⟩
        rcases h with rfl | h
        · exact ⟨.inl rfl, hle⟩
        · exact ⟨.inr h.1, h.2⟩
      · have hnil : (x :: xs).takeWhile (· ≤ start) = [] :=
          List.takeWhile_cons_of_neg (by simpa using hle)
        rw [hnil]
        refine ⟨fun h => absurd h List.not_mem_nil, fun h => absurd h.2 ?_⟩
        rcases List.mem_cons.mp h.1 with rfl | hid
        · exact hle
        · have := hx id hid
          omega

theorem mem_upTo (hasc : all.Pairwise (· < ·)) :
    id ∈ upTo all start ↔ id ∈ all ∧ (0 < start → id ≤ start) := by
  rw [upTo]
  split
  · next hstart => simp [mem_takeWhile_le hasc, hstart]
  · next hstart => simp [hstart]

theorem length_upTo_le (all : List Int) (id : Int) : (upTo all id).length ≤ all.length := by
  rw [upTo]
  split
  · exact (List.takeWhile_sublist _).length_le
  · exact Nat.le_refl _

/-- A page that is cut is the last one. -/
theorem upTo_append (page rest : List Int) (id : Int) :
    upTo (page ++ rest) id =
      if (upTo page id).length < page.length then upTo page id else page ++ upTo rest id := by
  have hle := length_upTo_le page id
  by_cases hid : 0 < id
  · simp only [upTo, if_pos hid] at hle ⊢
    rw [List.takeWhile_append]
    split <;> split <;> first | rfl | omega
  · simp only [upTo, if_neg hid, Nat.lt_irrefl, if_false]

theorem upTo_of_length (h : ¬ (upTo page id).length < page.length) : upTo page id = page := by
  have hnil := upTo_append page [] id
  rw [List.append_nil, if_neg h] at hnil
  rw [hnil, upTo, List.takeWhile_nil, ite_self, List.append_nil]

/-- What the source has still to look up, if `all` are the candidates of its category. -/
def toCome (s : Source) (all : List Int) : List Int :=
  if s.exhausted then []
  else if s.wrapped then upTo (behind all s.afterId) s.start
  else behind all s.afterId ++ upTo all s.start

/-- **A round misses nothing**: wherever it begins, what is to come are the candidates. -/
theorem mem_toCome_begin (hasc : all.Pairwise (· < ·)) (hpos : ∀ id ∈ all, 0 < id) (c : Category)
    (start : Int) : id ∈ (Source.begin c start).toCome all ↔ id ∈ all := by
  by_cases hzero : start = 0
  · simp [Source.begin, toCome, upTo, hzero, behind_zero hpos]
  · have hwrapped : (start == 0) = false := beq_eq_false_iff_ne.mpr hzero
    simp only [toCome, Source.begin, hwrapped, Bool.false_eq_true, if_false, List.mem_append,
      mem_upTo hasc, behind, List.mem_filter, decide_eq_true_eq]
    refine ⟨fun h => h.elim And.left And.left, fun h => ?_⟩
    by_cases hid : start < id
    · exact .inl ⟨h, hid⟩
    · exact .inr ⟨h, fun _ => Int.not_lt.mp hid⟩

/-- What is to come are candidates. -/
theorem mem_of_mem_toCome (h : id ∈ s.toCome all) : id ∈ all := by
  have hupTo : ∀ xs : List Int, id ∈ upTo xs s.start → id ∈ xs := fun xs hid => by
    rw [upTo] at hid
    split at hid
    · exact (List.takeWhile_sublist _).subset hid
    · exact hid
  rw [toCome] at h
  split at h
  · exact absurd h List.not_mem_nil
  split at h
  · exact (List.mem_filter.mp (hupTo _ h)).1
  · rcases List.mem_append.mp h with h | h
    · exact (List.mem_filter.mp h).1
    · exact hupTo _ h

/-! ## Looking up -/

/-- A bound on the pages still to be looked up. -/
def lookups (s : Source) (all : List Int) : Nat :=
  if s.exhausted then 0
  else if s.wrapped then (behind all s.afterId).length + 1
  else (behind all s.afterId).length + all.length + 2

theorem lookups_le (s : Source) (all : List Int) : s.lookups all ≤ 2 * all.length + 2 := by
  have hle : (behind all s.afterId).length ≤ all.length := List.length_filter_le _ _
  rw [lookups]
  split
  · omega
  split <;> omega

theorem lookups_eq_zero_iff : s.lookups all = 0 ↔ s.exhausted = true := by
  rw [lookups]
  split
  · next hexhausted => exact iff_of_true rfl hexhausted
  · next hopen =>
    refine iff_of_false (fun h => ?_) hopen
    split at h <;> omega

@[simp] theorem buffer_accept (s : Source) (size : Nat) (page : List Int) :
    (s.accept size page).buffer = s.buffer ++ s.cut page := by
  simp only [accept]
  split <;> rfl

theorem cut_subset (s : Source) (page : List Int) : s.cut page ⊆ page := by
  rw [cut]
  split
  · exact (List.takeWhile_sublist _).subset
  · exact List.Subset.refl page

/-- The first page is never cut. -/
@[simp] theorem cut_begin (c : Category) (start : Int) (page : List Int) :
    (Source.begin c start).cut page = page := by
  rw [cut, if_neg]
  rintro ⟨hwrapped, hpos⟩
  rw [beq_iff_eq.mp hwrapped] at hpos
  exact Int.lt_irrefl 0 hpos

/-- The last page of the first leg: the second leg begins at the lowest number. -/
theorem accept_turns (hw : s.wrapped = false) (hlast : page.length < size) :
    s.accept size page = { s with wrapped := true, afterId := 0, buffer := s.buffer ++ page } := by
  simp [accept, cut, hw, hlast]

/-- Another page of the first leg. -/
theorem accept_goesOn (hw : s.wrapped = false) (hmore : ¬ page.length < size) :
    s.accept size page =
      { s with
        afterId := page.getLast?.getD s.afterId
        buffer := s.buffer ++ page
        exhausted := false } := by
  simp [accept, cut, hw, hmore]

/-- A page of the second leg. -/
theorem accept_second (hw : s.wrapped = true) :
    s.accept size page =
      { s with
        afterId := (upTo page s.start).getLast?.getD s.afterId
        buffer := s.buffer ++ upTo page s.start
        exhausted :=
          decide (page.length < size) || decide ((upTo page s.start).length < page.length) } := by
  have hcut : s.cut page = upTo page s.start := by simp [cut, upTo, hw]
  simp [accept, hcut, hw]

/-- Fewer numbers lie behind a larger one of them. -/
theorem length_behind_lt {last : Int} (hmem : last ∈ all) (hlt : id < last) :
    (behind all last).length < (behind all id).length := by
  have hlast : last ∈ behind all id := List.mem_filter.mpr ⟨hmem, decide_eq_true hlt⟩
  rw [behind_eq_filter hlt, List.length_filter_lt_length_iff_exists]
  exact ⟨last, hlast, by simp⟩

/-- **A look-up brings a source closer to its last page**, whatever numbers of `all` behind the last
one it is answered. -/
theorem lookups_accept_lt (hsize : 0 < size) (hopen : s.exhausted = false)
    (hpage : ∀ id ∈ page, id ∈ all ∧ s.afterId < id) :
    (s.accept size page).lookups all < s.lookups all := by
  have hnext : ∀ more : ¬ page.length < size,
      (behind all (page.getLast?.getD s.afterId)).length < (behind all s.afterId).length := by
    intro hmore
    rcases List.eq_nil_or_concat page with rfl | ⟨init, last, rfl⟩
    · exact absurd hsize hmore
    · rw [List.concat_eq_append] at hpage ⊢
      rw [List.getLast?_concat, Option.getD_some]
      obtain ⟨hmem, hlt⟩ := hpage last List.mem_concat_self
      exact length_behind_lt hmem hlt
  cases hw : s.wrapped with
  | false =>
    have hlookups : s.lookups all = (behind all s.afterId).length + all.length + 2 := by
      simp [lookups, hopen, hw]
    rw [hlookups]
    by_cases hlast : page.length < size
    · have hagain : (behind all 0).length ≤ all.length := List.length_filter_le _ _
      rw [accept_turns hw hlast]
      simp only [lookups, hopen, if_true, Bool.false_eq_true, if_false]
      omega
    · have hcloser := hnext hlast
      rw [accept_goesOn hw hlast]
      simp only [lookups, hw, Bool.false_eq_true, if_false]
      omega
  | true =>
    have hlookups : s.lookups all = (behind all s.afterId).length + 1 := by
      simp [lookups, hopen, hw]
    rw [hlookups, accept_second hw]
    by_cases hlast : page.length < size ∨ (upTo page s.start).length < page.length
    · have hend : (decide (page.length < size) ||
          decide ((upTo page s.start).length < page.length)) = true := by simpa using hlast
      simp only [lookups, hend, if_true]
      exact Nat.succ_pos _
    · obtain ⟨hmore, hwhole⟩ := not_or.mp hlast
      have hcloser := hnext hmore
      rw [upTo_of_length hwhole]
      simp only [lookups, hw, hmore, Nat.lt_irrefl, decide_false, Bool.or_false,
        Bool.false_eq_true, if_false, if_true]
      omega

/-- A source before and after a look-up. -/
structure LooksUp (all : List Int) (s s' : Source) : Prop where
  keeps : s'.buffer ++ s'.toCome all = s.toCome all
  closer : s'.lookups all < s.lookups all
  category : s'.category = s.category

/-- **A look-up** of a page, of whatever size, moves a beginning of what is to come into the
buffer. -/
theorem looksUp_accept (hsize : 0 < size) (hasc : all.Pairwise (· < ·)) (hpos : ∀ id ∈ all, 0 < id)
    (hdue : s.isDue = true) (hpage : IsPage size page (behind all s.afterId)) :
    LooksUp all s (s.accept size page) := by
  obtain ⟨rest, hleg, hshort⟩ := hpage
  have hbehind := behind_getLast hasc hleg
  obtain ⟨hbuffer, hexhausted⟩ := isDue_iff.mp hdue
  have hcloser : (s.accept size page).lookups all < s.lookups all := by
    refine lookups_accept_lt hsize hexhausted fun id hid => ?_
    have hmem : id ∈ behind all s.afterId := by
      rw [hleg]
      exact List.mem_append_left _ hid
    exact (List.mem_filter.mp hmem).imp_right of_decide_eq_true
  refine ⟨?_, hcloser, ?_⟩
  · cases hw : s.wrapped with
    | false =>
      have htoCome : s.toCome all = page ++ rest ++ upTo all s.start := by
        simp [toCome, hexhausted, hw, hleg]
      rw [htoCome]
      by_cases hlast : page.length < size
      · rw [accept_turns hw hlast]
        simp [hshort hlast, toCome, hexhausted, hbuffer, behind_zero hpos]
      · rw [accept_goesOn hw hlast]
        simp [toCome, hw, hbuffer, hbehind]
    | true =>
      have htoCome : s.toCome all = upTo (page ++ rest) s.start := by
        simp [toCome, hexhausted, hw, hleg]
      rw [htoCome, accept_second hw]
      by_cases hcut : (upTo page s.start).length < page.length
      · rw [upTo_append, if_pos hcut]
        simp [toCome, hbuffer, hcut]
      · rw [upTo_of_length hcut]
        by_cases hlast : page.length < size
        · rw [hshort hlast, List.append_nil, upTo_of_length hcut]
          simp [toCome, hbuffer, hlast]
        · rw [upTo_append, if_neg hcut]
          simp [toCome, hbuffer, hlast, hw, hbehind]
  · simp only [accept]
    split <;> rfl

end Source

end GeoReplication
