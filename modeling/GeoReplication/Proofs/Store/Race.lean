import GeoReplication.Proofs.Store.References

/-!
# Proofs/Store/Race — nodes are written while others look

Creating and changing a node look for a primary first and write afterwards, and anything may happen
in between.  The look is a courtesy: a write on its own does nothing, or what the whole operation
would have done at that moment (`NodeWrite.snd_write`).  So a race leads nowhere that operations one
after another would not lead, and all that is known of reached stores holds in it.
-/

namespace GeoReplication

open GeoReplication.Time Relation

/-- An operation that writes a node after it has looked for a primary. -/
inductive NodeWrite where
  | create (n : NewNode)
  | update (n : Node)
deriving DecidableEq

namespace NodeWrite

open GeoReplication.Store GeoReplication.Action

/-- The operation as a whole. -/
abbrev call : NodeWrite → Call
  | create n => .createNode n
  | update n => .updateNode n

/-- The look for a primary. -/
def look (now : Instant) : NodeWrite → Action Unit
  | create n => do
    if n.role = .primary then
      if (← getPrimaryNode now).isSome then .fail .secondPrimary
  | update n => do
    if n.isPrimary then
      if let some primary ← getPrimaryNode now then
        if primary.id ≠ n.id then .fail .secondPrimary

/-- The write. -/
def write (now : Instant) : (w : NodeWrite) → Action w.call.Reply
  | create n => insertNode now n
  | update n => replaceNode now n

/-- There would be a primary beside another. -/
def Second (s : Store) : NodeWrite → Prop
  | create n => n.role = .primary ∧ ∃ id row, s.nodes.get? id = some row ∧ row.primary = true
  | update n => n.isPrimary = true ∧ s.nodes.contains n.id = true ∧
      ∃ id row, id ≠ n.id ∧ s.nodes.get? id = some row ∧ row.primary = true

variable {s s' : Store} {now : Instant} {w : NodeWrite}

/-- The look lets pass, or refuses, or cannot read the primary; it changes nothing. -/
theorem run_look (w : NodeWrite) (now : Instant) (s : Store) :
    (w.look now).run s = (.ok (), s) ∨ (w.look now).run s = (.error .secondPrimary, s) ∨
      ∃ e, s.readPrimary now = .error e ∧ (w.look now).run s = (.error e, s) := by
  cases w with
  | create n =>
    by_cases hrole : n.role = .primary <;>
      rcases hprimary : s.readPrimary now with e | _ | primary <;>
      simp [look, getPrimaryNode, hrole, hprimary]
  | update n =>
    by_cases hrole : n.isPrimary = true <;>
      rcases hprimary : s.readPrimary now with e | _ | primary
    case pos.ok.some =>
      by_cases hid : primary.id = n.id <;> simp [look, getPrimaryNode, hrole, hprimary, hid]
    all_goals simp [look, getPrimaryNode, hrole, hprimary]

/-- The whole operation looks, and writes at once if it may. -/
theorem run_call (w : NodeWrite) (now : Instant) (s : Store) :
    w.call.run now s = Call.lift (do w.look now; w.write now) s := by
  cases w with
  | create n =>
    change Call.lift (createNode now n) s = _
    rw [Call.lift, Call.lift, run_createNode]
    by_cases hrole : n.role = .primary <;>
      rcases hprimary : s.readPrimary now with e | _ | primary <;>
      simp [look, write, getPrimaryNode, hrole, hprimary]
  | update n =>
    change Call.lift (updateNode now n) s = _
    rw [Call.lift, Call.lift, run_updateNode]
    by_cases hrole : n.isPrimary = true <;>
      rcases hprimary : s.readPrimary now with e | _ | primary
    case pos.ok.some =>
      by_cases hid : primary.id = n.id <;>
        simp [look, write, getPrimaryNode, hrole, hprimary, hid]
    all_goals simp [look, write, getPrimaryNode, hrole, hprimary]

/-- **A second primary is refused by the write**, whatever the look said. -/
theorem Second.run_write (h : w.Second s) (now : Instant) :
    (w.write now).run s = (.error .secondPrimary, s) := by
  cases w with
  | create n =>
    obtain ⟨hrole, id, row, hrow, hprimary⟩ := h
    refine run_insertNode_of_clash (nodeClash_of_primary (decide_eq_true hrole) hrow ?_ hprimary)
    rintro rfl
    cases hrow.symm.trans (Numbered.get?_next _)
  | update n =>
    obtain ⟨hrole, hthere, id, row, hid, hrow, hprimary⟩ := h
    obtain ⟨old, hold⟩ := Numbered.contains_iff_exists.mp hthere
    exact run_replaceNode_of_clash hold (nodeClash_of_primary hrole hrow hid hprimary)

/-- Nor does the whole operation make one, where the primary can be read. -/
theorem Second.run_call (h : w.Second s) {o : Option Node} (hread : s.readPrimary now = .ok o) :
    w.call.run now s = (.error (.error .secondPrimary), s) := by
  rw [NodeWrite.run_call, Call.lift, run_bind]
  rcases w.run_look now s with hlook | hlook | ⟨e, hunread, -⟩
  · rw [hlook]
    dsimp only
    rw [h.run_write now]
  · rw [hlook]
  · cases hread.symm.trans hunread

/-- What the look refuses, the write refuses too. -/
theorem run_write_of_refused (h : (w.look now).run s = (.error .secondPrimary, s)) {o : Option Node}
    (hread : s.readPrimary now = .ok o) : ∃ e, (w.write now).run s = (.error e, s) := by
  cases w with
  | create n =>
    by_cases hrole : n.role = .primary
    · cases o with
      | none => simp [look, getPrimaryNode, hrole, hread] at h
      | some primary =>
        obtain ⟨row, hrow, hflag⟩ := row_of_readPrimary hread
        exact ⟨_, Second.run_write (w := .create n) ⟨hrole, primary.id, row, hrow, hflag⟩ now⟩
    · simp [look, hrole] at h
  | update n =>
    cases hold : s.nodes.get? n.id with
    | none => exact ⟨_, run_replaceNode_of_missing hold⟩
    | some old =>
      by_cases hrole : n.isPrimary = true
      · cases o with
        | none => simp [look, getPrimaryNode, hrole, hread] at h
        | some primary =>
          by_cases hid : primary.id = n.id
          · simp [look, getPrimaryNode, hrole, hread, hid] at h
          · obtain ⟨row, hrow, hflag⟩ := row_of_readPrimary hread
            have hthere := Numbered.contains_iff_exists.mpr ⟨old, hold⟩
            exact ⟨_, Second.run_write (w := .update n)
              ⟨hrole, hthere, primary.id, row, hid, hrow, hflag⟩ now⟩
      · simp [look, hrole] at h

/-- A write on its own answers as the whole operation does, where the primary can be read. -/
theorem run_call_of_run_write {x : w.call.Reply} (h : (w.write now).run s = (.ok x, s'))
    {o : Option Node} (hread : s.readPrimary now = .ok o) : w.call.run now s = (.ok x, s') := by
  rw [NodeWrite.run_call, Call.lift, run_bind]
  rcases w.run_look now s with hlook | hlook | ⟨e, hunread, -⟩
  · rw [hlook]
    dsimp only
    rw [h]
  · obtain ⟨e, hrun⟩ := run_write_of_refused hlook hread
    cases h.symm.trans hrun
  · cases hread.symm.trans hunread

/-- **A write on its own** does nothing, or what the whole operation does. -/
theorem snd_write (w : NodeWrite) {o : Option Node} (hread : s.readPrimary now = .ok o) :
    ((w.write now).run s).2 = s ∨ ((w.write now).run s).2 = (w.call.run now s).2 := by
  rcases hrun : (w.write now).run s with ⟨e | x, s'⟩
  · have hatomic : (w.write now).Atomic := by
      cases w <;> exact atomic_transaction _
    exact .inl (hatomic s s' e hrun)
  · rw [run_call_of_run_write hrun hread]
    exact .inr rfl

end NodeWrite

/-! ## Nodes of reached stores -/

namespace Store

variable {s : Store} {later : Instant} {id id' : Int} {a b : Node}

/-- Two nodes are not both primary, and do not have one address. -/
theorem Reached.node?_inj (h : s.Reached) (ha : s.node? later id = some a)
    (hb : s.node? later id' = some b)
    (hclash : a.isPrimary = true ∧ b.isPrimary = true ∨ a.address.trimmed = b.address.trimmed) :
    id = id' := by
  obtain ⟨row, hrow, hholds⟩ := row_of_node? ha
  obtain ⟨row', hrow', hholds'⟩ := row_of_node? hb
  refine h.distinct.nodes id id' row row' hrow hrow'
    (hclash.imp (fun hboth => ?_) fun haddress => ?_)
  · rwa [hholds.isPrimary_eq, hholds'.isPrimary_eq] at hboth
  · rw [(h.nodesWritten id row hrow).trimmed hholds,
      (h.nodesWritten id' row' hrow').trimmed hholds'] at haddress
    rw [hholds.address, hholds'.address, haddress]

/-- The namespaces of a node are listed in order, each once, and exist. -/
theorem Reached.node?_namespaces (h : s.Reached) (ha : s.node? later id = some a) :
    a.namespaceIds.Pairwise (· < ·) ∧
      ∀ namespaceId ∈ a.namespaceIds, s.namespaces.contains namespaceId = true := by
  obtain ⟨row, -, hholds⟩ := row_of_node? ha
  rw [hholds.namespaceIds]
  refine ⟨s.namespacesOf_pairwise id, fun namespaceId hmem => ?_⟩
  exact h.intact .linkedNamespace namespaceId ⟨id, mem_namespacesOf.mp hmem⟩

end Store

/-! ## Races -/

/-- A store, and the writes that have passed their look. -/
structure Race where
  store : Store
  pending : List NodeWrite

namespace Race

/-- Before anything has happened. -/
def start : Race := ⟨.empty, []⟩

/-- What happens next: an operation as a whole, a look that lets pass, or a write after its look. -/
inductive Turn : Race → Race → Prop
  | call (r : Race) (now : Instant) (c : Call) : Turn r { r with store := (c.run now r.store).2 }
  | look (r : Race) (now : Instant) (w : NodeWrite) (h : ((w.look now).run r.store).1 = .ok ()) :
      Turn r { r with pending := w :: r.pending }
  | write (r : Race) (now : Instant) (w : NodeWrite) (h : w ∈ r.pending) :
      Turn r ⟨((w.write now).run r.store).2, r.pending.erase w⟩

variable {r : Race}

/-- **A race leads nowhere else** than operations one after another. -/
theorem reached (h : ReflTransGen Turn start r) : r.store.Reached := by
  induction h with
  | refl => exact .empty
  | tail _ hturn ih =>
    cases hturn with
    | call now c => exact ih.call now c
    | look now w _ => exact ih
    | write now w _ =>
      obtain ⟨o, hread⟩ := ih.nodesWritten.exists_readPrimary now
      rcases w.snd_write hread with hsame | hcall
      · rwa [hsame]
      · rw [hcall]
        exact ih.call now w.call

/-- **Nodes in a race.**  Whatever runs between a look and its write: looking for a node does not
fail; one node is primary at most, no two have one address, and each reads with namespaces that
exist, in order and each once; whoever would make a second primary is refused, before the write or
by it; and a node that was changed reads as it was changed, and all others as before. -/
theorem nodes_stand (h : ReflTransGen Turn start r) :
    (∀ later id, (Call.getNode id).run later r.store =
      (.ok (r.store.node? later id), r.store)) ∧
    (∀ later id id' a b, r.store.node? later id = some a → r.store.node? later id' = some b →
      a.isPrimary = true ∧ b.isPrimary = true ∨ a.address.trimmed = b.address.trimmed → id = id') ∧
    (∀ later id a, r.store.node? later id = some a → a.namespaceIds.Pairwise (· < ·) ∧
      ∀ namespaceId ∈ a.namespaceIds, r.store.namespaces.contains namespaceId = true) ∧
    (∀ (w : NodeWrite) now, w.Second r.store →
      w.call.run now r.store = (.error (.error .secondPrimary), r.store) ∧
      (w.write now).run r.store = (.error .secondPrimary, r.store)) ∧
    ∀ now n s', (Call.updateNode n).run now r.store = (.ok (), s') ∨
        ((NodeWrite.update n).write now).run r.store = (.ok (), s') →
      ∀ later, (∃ before, r.store.node? later n.id = some before ∧
        ((Call.getNode n.id).run later s').1 = .ok (some (n.over now later before))) ∧
        ∀ id, id ≠ n.id → s'.node? later id = r.store.node? later id := by
  have hreached := reached h
  have hwritten := hreached.nodesWritten
  refine ⟨hwritten.run_getNode, fun later id id' a b => hreached.node?_inj,
    fun later id a => hreached.node?_namespaces, fun w now hsecond => ?_, ?_⟩
  · obtain ⟨o, hread⟩ := hwritten.exists_readPrimary now
    exact ⟨hsecond.run_call hread, hsecond.run_write now⟩
  · intro now n s' hrun later
    obtain ⟨o, hread⟩ := hwritten.exists_readPrimary now
    have hupdate : (Call.updateNode n).run now r.store = (.ok (), s') :=
      hrun.elim id fun hwrite => NodeWrite.run_call_of_run_write (w := .update n) hwrite hread
    obtain ⟨old, halters⟩ := Call.alters_of_run hupdate
    obtain ⟨before, hbefore, hafter⟩ := halters.exists_before hwritten later
    have hreached' : s'.Reached := by
      have hafter := hreached.call now (.updateNode n)
      rwa [hupdate] at hafter
    refine ⟨⟨before, hbefore, ?_⟩, fun id hid => ?_⟩
    · rw [hreached'.nodesWritten.run_getNode, hafter]
    · rw [Store.node?, Store.node?, halters.readNode_of_ne later hid]

/-- Two look for a primary and find none; the first write makes one, the other is refused.  Then the
primary moves to another root, and to a namespace that is named twice. -/
theorem nodes_stand_between_two : ∃ (r : Race) (second : NodeWrite) (n : Node) (s' : Store),
    ReflTransGen Turn start r ∧ second ∈ r.pending ∧
    (second.write .epoch).run r.store = (.error .secondPrimary, r.store) ∧
    n.address.root = "/root/" ∧ n.namespaceIds = [1, 1] ∧
    (Call.updateNode n).run .epoch r.store = (.ok (), s') ∧
    ∃ before, ((Call.getNode n.id).run .epoch s').1 =
      .ok (some (n.over .epoch .epoch before)) := by
  have hgroup := ReflTransGen.single (Turn.call start .epoch (.createNamespace "group" none))
  have hlooks := (hgroup.tail
    (.look _ .epoch (.create ⟨⟨"http", "second", 80, ""⟩, .primary, true, [], 1, 1⟩) rfl)).tail
    (.look _ .epoch (.create ⟨⟨"http", "first", 80, ""⟩, .primary, true, [], 1, 1⟩) rfl)
  have hrace := hlooks.tail (.write _ .epoch _ List.mem_cons_self)
  obtain ⟨-, -, -, hsecond, hupdate⟩ := nodes_stand hrace
  have hrefused := hsecond (.create ⟨⟨"http", "second", 80, ""⟩, .primary, true, [], 1, 1⟩) .epoch
    ⟨rfl, 1, _, rfl, rfl⟩
  have hmoved := hupdate .epoch
    ⟨1, ⟨"http", "first", 80, "/root/"⟩, .primary, true, [1, 1], 1, 1, .epoch, .epoch⟩ _
    (.inl rfl) .epoch
  obtain ⟨⟨before, -, hread⟩, -⟩ := hmoved
  exact ⟨_, _, _, _, hrace, by simp, hrefused.2, rfl, rfl, rfl, before, hread⟩

end Race

end GeoReplication
