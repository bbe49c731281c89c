import GeoReplication.Json.Decode
import GeoReplication.Proofs.Json.ReadBack

/-!
# Proofs/Json/Records — records read back

    Point.mk <$> .field "x" read <*> .optionalField "y" read
                  [("x", a)]      ++    member? "y" b

A value gives what it was written from once its document does, for its text is read as that document
(`Gives.decode_text`).  A reader of records is put together from its fields, and so is what it
gathers: each field takes its own member, or none where nothing was written, and two readers share
the members as they share the names (`Gathers.seq`).  No name stands twice, so the whole object
gives the whole record: `Gathers.gives`.
-/

namespace GeoReplication.Json

open GeoReplication.Text

variable {α β : Type}

/-- From the value written as `j`, `read` gives `a`. -/
structure Gives (read : Decoder α) (j : Json) (a : α) : Prop where
  whole : j.IsWhole
  read_doc : read j.doc = .ok a

/-- **A written text is decoded** as its value is. -/
theorem Gives.decode_text {read : Decoder α} {j : Json} {a : α} (h : Gives read j a) :
    decode read j.text = .ok a := by
  rw [decode, Document.read_text h.whole]
  dsimp only
  rw [h.read_doc]
  rfl

/-! ## Values -/

theorem gives_bool (b : Bool) : Gives Doc.asBool (.bool b) b := ⟨.bool b, rfl⟩

theorem gives_string (s : String) : Gives Doc.asString (.string s) s := ⟨.string s, rfl⟩

theorem gives_word {word : String} {ofWord? : String → Option α} {a : α}
    (h : ofWord? word = some a) : Gives (Doc.asWord ofWord?) (.string word) a :=
  ⟨.string word, by rw [doc, Doc.asWord, h]; rfl⟩

theorem gives_int {min max n : Int} (hmin : minId ≤ min) (hmax : max ≤ maxUnsigned) (h : min ≤ n)
    (h' : n ≤ max) : Gives (Doc.asInt min max) (.int n) n :=
  ⟨.int (Int.le_trans hmin h) (Int.le_trans h' hmax), if_pos ⟨h, h'⟩⟩

theorem gives_nat {max n : Nat} (hmax : max ≤ maxUnsigned) (h : n ≤ max) :
    Gives (Doc.asNat max) (.nat n) n := by
  have hint : Gives (Doc.asInt 0 max) (.nat n) n :=
    gives_int (by decide) (Int.ofNat_le.mpr hmax) (Int.natCast_nonneg n) (Int.ofNat_le.mpr h)
  exact ⟨hint.whole, by rw [Doc.asNat, hint.read_doc]; rfl⟩

theorem mapM_docs {read : Decoder α} {write : α → Json} : ∀ {as : List α},
    (∀ a ∈ as, Gives read (write a) a) → (docs (as.map write)).mapM read = .ok as
  | [], _ => rfl
  | a :: as, h => by
      rw [List.map_cons, docs, List.mapM_cons, (h a List.mem_cons_self).read_doc,
        mapM_docs fun b hb => h b (List.mem_cons_of_mem _ hb)]
      rfl

theorem gives_list {read : Decoder α} {write : α → Json} {as : List α}
    (h : ∀ a ∈ as, Gives read (write a) a) :
    Gives (Doc.asList read) (.array (as.map write)) as := by
  refine ⟨.array fun j hj => ?_, ?_⟩
  · obtain ⟨a, ha, rfl⟩ := List.mem_map.mp hj
    exact (h a ha).whole
  · rw [doc, Doc.asList, mapM_docs h]
    rfl

theorem Gives.asOptional {read : Decoder α} {j : Json} {a : α} {f : Fault} (h : Gives read j a)
    (hnull : read .null = .error f) : Gives (Doc.asOptional read) j (some a) := by
  refine ⟨h.whole, ?_⟩
  have hread := h.read_doc
  rw [Doc.asOptional]
  · rw [hread]
    rfl
  · rintro hj
    rw [hj, hnull] at hread
    cases hread

/-- A value that may be missing, written as `null` then. -/
theorem gives_optional {read : Decoder α} {write : α → Json} {f : Fault}
    (hnull : read .null = .error f) : ∀ {o : Option α}, (∀ a ∈ o, Gives read (write a) a) →
      Gives (Doc.asOptional read) (.optional write o) o
  | none, _ => ⟨.null, rfl⟩
  | some a, h => (h a rfl).asOptional hnull

/-! ## Members -/

namespace RecordReader

/-- The names of the fields in order. -/
def names (r : RecordReader α) : List String := r.rules.map Rule.name

theorem names_seq (r : RecordReader (α → β)) (r' : RecordReader α) :
    (r <*> r').names = r.names ++ r'.names := List.map_append

/-- From an object with `members` and no others of its names, `r` puts `a` together. The members
stand in the order of the fields, so that names which differ in `r` differ among them. -/
structure Gathers (r : RecordReader α) (members : List (String × Json)) (a : α) : Prop where
  whole : ∀ m ∈ members, m.2.IsWhole
  order : (members.map Prod.fst).Sublist r.names
  passes : ∀ m ∈ members, ∃ rule ∈ r.rules, rule.name = m.1 ∧ rule.check m.2.doc = .ok ()
  build : r.names.Nodup → ∀ {found : Found}, found.ordered = false →
    (∀ name ∈ r.names, found.get? name = (members.lookup name).map doc) → r.build found = .ok a

theorem lookup_eq_none {members : List (String × Json)} {name : String}
    (h : name ∉ members.map Prod.fst) : members.lookup name = none := by
  refine List.lookup_eq_none_iff.mpr fun m hm => ?_
  rw [bne_iff_ne]
  rintro rfl
  exact h (List.mem_map_of_mem hm)

theorem lookup_append_left {members members' : List (String × Json)} {name : String}
    (h : name ∉ members'.map Prod.fst) :
    (members ++ members').lookup name = members.lookup name := by
  rw [List.lookup_append, lookup_eq_none h, Option.or_none]

theorem lookup_append_right {members members' : List (String × Json)} {name : String}
    (h : name ∉ members.map Prod.fst) :
    (members ++ members').lookup name = members'.lookup name := by
  rw [List.lookup_append, lookup_eq_none h, Option.none_or]

theorem Gathers.map {r : RecordReader α} {members : List (String × Json)} {a : α}
    (h : r.Gathers members a) (f : α → β) : (f <$> r).Gathers members (f a) where
  whole := h.whole
  order := h.order
  passes := h.passes
  build hnames _ hordered hfound := by
    change (r.build _).map f = _
    rw [h.build hnames hordered hfound]
    rfl

/-- **Two readers share the members** as they share the names. -/
theorem Gathers.seq {r : RecordReader (α → β)} {r' : RecordReader α}
    {members members' : List (String × Json)} {f : α → β} {a : α} (h : r.Gathers members f)
    (h' : r'.Gathers members' a) : (r <*> r').Gathers (members ++ members') (f a) where
  whole m hm := (List.mem_append.mp hm).elim (h.whole m) (h'.whole m)
  order := by
    rw [List.map_append, names_seq]
    exact h.order.append h'.order
  passes m hm := by
    rcases List.mem_append.mp hm with hm | hm
    · obtain ⟨rule, hrule, hpass⟩ := h.passes m hm
      exact ⟨rule, List.mem_append_left _ hrule, hpass⟩
    · obtain ⟨rule, hrule, hpass⟩ := h'.passes m hm
      exact ⟨rule, List.mem_append_right _ hrule, hpass⟩
  build hnames found hordered hfound := by
    rw [names_seq] at hnames hfound
    obtain ⟨hdistinct, hdistinct', hapart⟩ := List.nodup_append.mp hnames
    have hbuild : r.build found = .ok f := by
      refine h.build hdistinct hordered fun name hname => ?_
      rw [hfound name (List.mem_append_left _ hname), lookup_append_left]
      exact fun hmem => hapart name hname name (h'.order.subset hmem) rfl
    have hbuild' : r'.build found = .ok a := by
      refine h'.build hdistinct' hordered fun name hname => ?_
      rw [hfound name (List.mem_append_right _ hname), lookup_append_right]
      exact fun hmem => hapart name (h.order.subset hmem) name hname rfl
    change (do return (← r.build found) (← r'.build found)) = _
    rw [hbuild, hbuild']
    rfl

theorem gathers_field {name : String} {read : Decoder α} {missing short : Option α} {j : Json}
    {a : α} (h : Gives read j a) : (fieldWith name read missing short).Gathers [(name, j)] a where
  whole m hm := List.mem_singleton.mp hm ▸ h.whole
  order := .refl _
  passes m hm := by
    obtain rfl := List.mem_singleton.mp hm
    refine ⟨_, List.mem_singleton_self _, rfl, ?_⟩
    dsimp only
    rw [h.read_doc]
    rfl
  build _ found _ hfound := by
    have hget : found.get? name = some j.doc := by
      rw [hfound name (List.mem_singleton_self _)]
      simp
    simp only [fieldWith, hget]
    exact h.read_doc

/-- A field that is left out where there is nothing. -/
theorem gathers_member? {name : String} {read : Decoder α} {write : α → Json} {f : Fault}
    {short : Option (Option α)} (hnull : read .null = .error f) :
    ∀ {o : Option α}, (∀ a ∈ o, Gives read (write a) a) →
      (fieldWith name (Doc.asOptional read) (some none) short).Gathers (member? name write o) o
  | some a, h => gathers_field ((h a rfl).asOptional hnull)
  | none, _ => {
      whole := by simp [member?]
      order := List.nil_sublist _
      passes := by simp [member?]
      build := fun _ found hordered hfound => by
        have hget : found.get? name = none := hfound name (List.mem_singleton_self _)
        simp only [fieldWith, hget, hordered]
        rfl }

/-! ## Objects -/

theorem find?_rule {rule : Rule} : ∀ {rules : List Rule}, (rules.map Rule.name).Nodup →
    rule ∈ rules → rules.find? (·.name == rule.name) = some rule
  | first :: rules, hnames, hrule => by
      obtain ⟨hfirst, hnames⟩ := List.nodup_cons.mp hnames
      rcases List.mem_cons.mp hrule with rfl | hrule
      · simp
      · have hne : first.name ≠ rule.name := fun h => hfirst (h ▸ List.mem_map_of_mem hrule)
        rw [List.find?_cons_of_neg (by simpa using hne), find?_rule hnames hrule]

/-- The walk over an object finds its members under their names. -/
theorem walk_docMembers {rules : List Rule} (hnames : (rules.map Rule.name).Nodup) :
    ∀ (members : List (String × Json)) {seen : List (String × Doc)},
      (members.map Prod.fst).Nodup → (∀ m ∈ members, seen.lookup m.1 = none) →
      (∀ m ∈ members, ∃ rule ∈ rules, rule.name = m.1 ∧ rule.check m.2.doc = .ok ()) →
      ∃ found, walk rules seen (docMembers members) = .ok found ∧
        ∀ name, found.lookup name = (seen.lookup name).or ((members.lookup name).map doc)
  | [], seen, _, _, _ => ⟨seen, rfl, fun _ => Option.or_none.symm⟩
  | (k, j) :: members, seen, hdistinct, hunseen, hpasses => by
      obtain ⟨hk, hdistinct'⟩ := List.nodup_cons.mp hdistinct
      obtain ⟨rule, hrule, rfl, hcheck⟩ := hpasses _ List.mem_cons_self
      have hfirst : seen.lookup rule.name = none := hunseen _ List.mem_cons_self
      have hunseen' : ∀ m ∈ members, ((rule.name, j.doc) :: seen).lookup m.1 = none := by
        intro m hm
        have hne : m.1 ≠ rule.name := ne_of_mem_of_not_mem (List.mem_map_of_mem hm) hk
        rw [List.lookup_cons, beq_false_of_ne hne]
        exact hunseen m (List.mem_cons_of_mem _ hm)
      obtain ⟨found, hwalk, hfound⟩ := walk_docMembers hnames members hdistinct' hunseen'
        fun m hm => hpasses m (List.mem_cons_of_mem _ hm)
      refine ⟨found, ?_, fun name => ?_⟩
      · simp only [docMembers, walk, find?_rule hnames hrule, hfirst, hcheck]
        exact hwalk
      · rw [hfound name, List.lookup_cons, List.lookup_cons]
        by_cases hsame : name = rule.name
        · simp [hsame, hfirst]
        · simp [beq_false_of_ne hsame]

/-- **An object of what was written** gives the record. -/
theorem Gathers.gives {r : RecordReader α} {members : List (String × Json)} {a : α}
    (h : r.Gathers members a) (hnames : r.names.Nodup) : Gives r.read (.object members) a := by
  refine ⟨.object h.whole, ?_⟩
  obtain ⟨found, hwalk, hfound⟩ := walk_docMembers hnames members (hnames.sublist h.order)
    (fun _ _ => List.lookup_nil) h.passes
  have hbuild : r.build ⟨found, false⟩ = .ok a :=
    h.build hnames rfl fun name _ => hfound name
  rw [doc, read, hwalk]
  exact hbuild

/-- The same for a value and a record that are spelled otherwise. -/
theorem Gathers.gives_of_eq {r : RecordReader α} {members : List (String × Json)} {j : Json}
    {a b : α} (h : r.Gathers members b) (hnames : r.names.Nodup) (hj : j = .object members)
    (ha : b = a) : Gives r.read j a := by
  subst hj ha
  exact h.gives hnames

end RecordReader

end GeoReplication.Json
