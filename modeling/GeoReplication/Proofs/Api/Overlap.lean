import GeoReplication.Api.Nodes
import GeoReplication.Proofs.Api.Handlers
import GeoReplication.Proofs.Program.Abreast
import GeoReplication.Proofs.Program.Looks
import GeoReplication.Proofs.Store.Nodes
import GeoReplication.Proofs.Store.Reached

/-!
# Proofs/Api/Overlap — two changes of a node at once

    first   look ───────────▸ write
    second          look ───────────▸ write      the first write is lost

A change of a node reads it, applies the fields that are set and writes all of it back, in separate
operations.  When two changes with no field in common are both answered with success, the one that
writes last keeps its fields.  The other keeps them exactly when the last one had not begun before
the first write, or when its fields had those values anyway (`change_kept_iff`).
-/

namespace GeoReplication

open GeoReplication.Time Program

/-! ## Fields that are set -/

namespace NodeUpdate

variable {u v : NodeUpdate} {n before : Node} {now later : Instant} {s s' : Site} {id : Int}

/-- The fields that are set are those of the node. -/
@[mk_iff]
structure Holds (u : NodeUpdate) (n : Node) : Prop where
  enabled : ∀ b, u.enabled = some b → n.enabled = b
  role : ∀ r, u.role = some r → n.role = r
  namespaceIds : ∀ ids, u.namespaceIds = some ids → ∀ id, id ∈ n.namespaceIds ↔ id ∈ ids
  reposMaxCapacity : ∀ k, u.reposMaxCapacity = some k → n.reposMaxCapacity = k
  filesMaxCapacity : ∀ k, u.filesMaxCapacity = some k → n.filesMaxCapacity = k

/-- No field is set by both. -/
structure Apart (u v : NodeUpdate) : Prop where
  enabled : u.enabled = .none ∨ v.enabled = .none
  role : u.role = .none ∨ v.role = .none
  namespaceIds : u.namespaceIds = .none ∨ v.namespaceIds = .none
  reposMaxCapacity : u.reposMaxCapacity = .none ∨ v.reposMaxCapacity = .none
  filesMaxCapacity : u.filesMaxCapacity = .none ∨ v.filesMaxCapacity = .none

theorem Apart.symm (h : u.Apart v) : v.Apart u :=
  ⟨h.enabled.symm, h.role.symm, h.namespaceIds.symm, h.reposMaxCapacity.symm,
    h.filesMaxCapacity.symm⟩

/-- What was applied and written is read back. -/
theorem holds_over_apply (u : NodeUpdate) : u.Holds ((u.apply n).over now later before) where
  enabled b h := by simp [apply, Node.over, h]
  role r h := by simp [apply, Node.over, h]
  namespaceIds ids h := by simp [apply, Node.over, h]
  reposMaxCapacity k h := by simp [apply, Node.over, h]
  filesMaxCapacity k h := by simp [apply, Node.over, h]

theorem forall_getD {α : Type} {p : α → α → Prop} {a b : Option α} {x : α}
    (h : a = .none ∨ b = .none) :
    (∀ y, a = some y → p (b.getD x) y) ↔ ∀ y, a = some y → p x y := by
  rcases h with rfl | rfl <;> simp

/-- The other fields are written back as they were read. -/
theorem Apart.holds_over_apply (h : u.Apart v) :
    u.Holds ((v.apply n).over now later before) ↔ u.Holds n := by
  rw [holds_iff, holds_iff]
  refine and_congr (forall_getD h.enabled) <| and_congr (forall_getD h.role) <|
    and_congr ?_ <| and_congr (forall_getD h.reposMaxCapacity) (forall_getD h.filesMaxCapacity)
  simp only [Node.over, List.mem_mergeSort, List.mem_dedup]
  exact forall_getD (p := fun held ids => ∀ id, id ∈ held ↔ id ∈ ids) h.namespaceIds

/-- A store holds the node of a number with the fields that are set. -/
def HoldsIn (u : NodeUpdate) (s : Store) (id : Int) : Prop :=
  ∃ later n, s.node? later id = some n ∧ u.Holds n

/-- When a node is read does not matter to the fields that can be set. -/
theorem holdsIn_iff {s : Store} (h : s.node? later id = some n) : u.HoldsIn s id ↔ u.Holds n := by
  obtain ⟨row, hrow, hholds⟩ := Store.row_of_node? h
  constructor
  · rintro ⟨later', n', hn', hheld⟩
    obtain ⟨row', hrow', hholds'⟩ := Store.row_of_node? hn'
    obtain rfl := Option.some.inj (hrow.symm.trans hrow')
    rw [hholds.eq_but_times hholds'] at hheld
    exact ⟨hheld.1, hheld.2, hheld.3, hheld.4, hheld.5⟩
  · exact fun hheld => ⟨later, _, h, hheld⟩

end NodeUpdate

/-! ## What is read and what is written -/

/-- Others leave the node of a number as it is. -/
def LeavesNode (id : Int) (s s' : Site) : Prop :=
  ∀ later, s'.store.node? later id = s.store.node? later id

section

variable {u v : NodeUpdate} {n : Node} {s s' : Site} {id : Int}

theorem LeavesNode.holdsIn_iff (h : LeavesNode id s s') :
    u.HoldsIn s'.store id ↔ u.HoldsIn s.store id := by
  simp only [NodeUpdate.HoldsIn, h _]

/-- What is read is the node as it stands. -/
theorem Site.node?_of_getNode {o : Option Node} (h : (s.call (.getNode id)).1 = .ok o) :
    s.store.node? s.now id = o := by
  have hread := Call.fst_lift_read.mp (congrArg Prod.fst (s.run_of_call_ok h))
  rw [Store.node?, hread]
  rfl

/-- A write that is answered leaves the node with the fields of `n`. -/
theorem Site.node?_of_updateNode {r : Unit} (h : (s.call (.updateNode n)).1 = .ok r) :
    ∃ before,
      (s.call (.updateNode n)).2.store.node? s.now n.id = some (n.over s.now s.now before) := by
  obtain ⟨old, halters⟩ := Call.alters_of_run (s.run_of_call_ok h)
  exact ⟨{ n with createdAt := .ofStored s.now old.createdAt },
    Store.node?_eq_some_iff.mpr (halters.readNode rfl)⟩

end

/-! ## The branch of a change -/

namespace Api.Server

open Handler

variable {srv : Server} {id : Int} {u : NodeUpdate} {ms : List Moment}

theorem declines_node (id : Int) : (node id).Declines :=
  (declines_during _ _).bind fun _ => declines_orMissing _ _

theorem declines_updateNode (srv : Server) (id : Int) (u : NodeUpdate) :
    (srv.updateNode id u).Declines :=
  (declines_node id).bind fun _ => (declines_during _ _).bind fun _ =>
    (declines_node id).bind fun _ => declines_pure _

theorem follows_node {n : Node} (hf : (node id).run.Follows ms (.ok (.ok n))) :
    ∃ s, ms = [⟨s, .store (.getNode id)⟩] ∧ s.store.node? s.now id = some n := by
  obtain ⟨o, ms₁, ms₂, rfl, hcall, hmissing⟩ := follows_bind hf
  obtain ⟨rfl, rfl⟩ := follows_orMissing hmissing
  obtain ⟨s, rfl, hreply⟩ := follows_call.mp (follows_during hcall)
  exact ⟨s, rfl, s.node?_of_getNode hreply.symm⟩

/-- **A change answered with success** has read the node, written it with the fields that are set,
and read it again. -/
theorem follows_updateNode {r : Http.Response}
    (hf : (srv.updateNode id u).response.Follows ms (.ok r)) (hr : r.status = 200) :
    ∃ s₁ s₂ s₃ n, ms = [⟨s₁, .store (.getNode id)⟩, ⟨s₂, .store (.updateNode (u.apply n))⟩,
        ⟨s₃, .store (.getNode id)⟩] ∧
      s₁.store.node? s₁.now id = some n ∧ (s₂.call (.updateNode (u.apply n))).1 = .ok () := by
  have hrun := (declines_updateNode srv id u).follows_response hf (by omega)
  obtain ⟨n, ms₁, ms', rfl, hlook, hrun⟩ := follows_bind hrun
  obtain ⟨⟨⟩, ms₂, ms', rfl, hwrite, hrun⟩ := follows_bind hrun
  obtain ⟨n', ms₃, ms', rfl, hshow, hrun⟩ := follows_bind hrun
  obtain ⟨rfl, -⟩ := hrun
  obtain ⟨s₁, rfl, hn⟩ := follows_node hlook
  obtain ⟨s₂, rfl, hreply⟩ := follows_call.mp (follows_during hwrite)
  obtain ⟨s₃, rfl, -⟩ := follows_node hshow
  exact ⟨s₁, s₂, s₃, n, rfl, hn, hreply.symm⟩

end Api.Server

/-! ## Turns of two changes -/

/-- The fields of a node are written. -/
def Effect.writesNode : Effect → Bool
  | .store (.updateNode _) => true
  | _ => false

/-- The turn of a program is the first in which a node is written. -/
def FirstWrite {ι : Type} (i : ι) (before h : List (ι × Moment)) : Prop :=
  ∃ m after, h = before ++ (i, m) :: after ∧ m.effect.writesNode = true ∧
    ∀ e ∈ before, e.2.effect.writesNode = false

theorem exists_firstWrite {ι : Type} {h : List (ι × Moment)} {e : ι × Moment} (he : e ∈ h)
    (hwrite : e.2.effect.writesNode = true) : ∃ i before, FirstWrite i before h := by
  cases hfind : h.find? (·.2.effect.writesNode) with
  | none => exact absurd hwrite (List.find?_eq_none.mp hfind e he)
  | some first =>
    obtain ⟨hfirst, before, after, rfl, hbefore⟩ := List.find?_eq_some_iff_append.mp hfind
    exact ⟨first.1, before, first.2, after, rfl, hfirst, fun e he => by simpa using hbefore e he⟩

/-- The second of three moments is the only one that writes. -/
theorem eq_of_append_eq_three {ms₁ ms₂ : List Moment} {m look write shown : Moment}
    (h : ms₁ ++ m :: ms₂ = [look, write, shown]) (hm : m.effect.writesNode = true)
    (hlook : look.effect.writesNode = false) (hshown : shown.effect.writesNode = false) :
    ms₁ = [look] ∧ m = write ∧ ms₂ = [shown] := by
  rcases ms₁ with _ | ⟨m₁, _ | ⟨m₂, _ | ⟨m₃, ms₁⟩⟩⟩
  · obtain ⟨rfl, -⟩ := List.cons.inj h
    cases hm.symm.trans hlook
  · obtain ⟨rfl, hrest⟩ := List.cons.inj h
    obtain ⟨rfl, rfl⟩ := List.cons.inj hrest
    exact ⟨rfl, rfl, rfl⟩
  · obtain ⟨-, hrest⟩ := List.cons.inj h
    obtain ⟨-, hrest⟩ := List.cons.inj hrest
    obtain ⟨rfl, -⟩ := List.cons.inj hrest
    cases hm.symm.trans hshown
  · simp at h

section Turns

variable {h : List (Bool × Moment)} {look write shown : Bool → Moment}

/-- The turns around both writes: `i` writes first, after its look, and the other after its own
look, wherever that was. -/
structure Writes (look write shown : Bool → Moment) (h : List (Bool × Moment)) (i : Bool)
    (before mid rest : List (Bool × Moment)) : Prop where
  turns : h = before ++ (i, write i) :: (mid ++ (!i, write !i) :: rest)
  firstLook : movesOf i before = [look i]
  firstShown : movesOf i (mid ++ rest) = [shown i]
  lastLook : movesOf (!i) (before ++ mid) = [look !i]
  lastShown : movesOf (!i) rest = [shown !i]

/-- **Both writes**: one comes first and one last. -/
theorem exists_writes (hmoves : ∀ i, movesOf i h = [look i, write i, shown i])
    (hlook : ∀ i, (look i).effect.writesNode = false)
    (hwrite : ∀ i, (write i).effect.writesNode = true)
    (hshown : ∀ i, (shown i).effect.writesNode = false) :
    ∃ i before mid rest, Writes look write shown h i before mid rest := by
  have hthere (i : Bool) : (i, write i) ∈ h := mem_movesOf.mp (by simp [hmoves])
  obtain ⟨i, before, m, after, rfl, hm, hbefore⟩ := exists_firstWrite (hthere true) (hwrite true)
  have hi := hmoves i
  rw [movesOf_append, movesOf_cons, if_pos rfl] at hi
  obtain ⟨hlooked, rfl, hshow⟩ := eq_of_append_eq_three hi hm (hlook i) (hshown i)
  -- the other has not written before, so it writes afterwards
  have hlater : (!i, write !i) ∈ after := by
    rcases List.mem_append.mp (hthere !i) with hearly | hlate
    · cases (hbefore _ hearly).symm.trans (hwrite !i)
    · refine (List.mem_cons.mp hlate).resolve_left fun hsame => ?_
      exact Bool.not_ne_self i (congrArg Prod.fst hsame)
  obtain ⟨mid, rest, rfl⟩ := List.append_of_mem hlater
  have hj := hmoves !i
  rw [movesOf_append, movesOf_cons, if_neg (Bool.not_ne_self i).symm, movesOf_append, movesOf_cons,
    if_pos rfl, ← List.append_assoc] at hj
  obtain ⟨hlooked', -, hshow'⟩ := eq_of_append_eq_three hj (hwrite _) (hlook _) (hshown _)
  rw [movesOf_append, movesOf_cons, if_neg (Bool.not_ne_self i)] at hshow
  exact ⟨i, before, mid, rest, rfl, hlooked, by rwa [movesOf_append], by rwa [movesOf_append],
    hshow'⟩

namespace Writes

variable {i : Bool} {before mid rest : List (Bool × Moment)}

/-- All other turns are looks. -/
theorem quiet (hw : Writes look write shown h i before mid rest) :
    ∀ e ∈ before ++ mid ++ rest, e.2 = look e.1 ∨ e.2 = shown e.1 := by
  rintro ⟨j, m⟩ he
  have hmem : m ∈ movesOf j before ∨ m ∈ movesOf j mid ∨ m ∈ movesOf j rest := by
    simpa [mem_movesOf, or_assoc] using he
  have hfirst := hw.firstShown
  have hlast := hw.lastLook
  rw [movesOf_append] at hfirst hlast
  by_cases hj : j = i
  · subst hj
    rcases hmem with hm | hm | hm
    · exact .inl (List.mem_singleton.mp (hw.firstLook ▸ hm))
    · exact .inr (List.mem_singleton.mp (hfirst ▸ List.mem_append_left _ hm))
    · exact .inr (List.mem_singleton.mp (hfirst ▸ List.mem_append_right _ hm))
  · obtain rfl := Bool.eq_not.mpr hj
    rcases hmem with hm | hm | hm
    · exact .inl (List.mem_singleton.mp (hlast ▸ List.mem_append_left _ hm))
    · exact .inl (List.mem_singleton.mp (hlast ▸ List.mem_append_right _ hm))
    · exact .inr (List.mem_singleton.mp (hw.lastShown ▸ hm))

/-- Whoever writes last has looked between the writes, and then the other was alone before the first
one, or has looked before. -/
theorem looked (hw : Writes look write shown h i before mid rest) :
    (∀ e ∈ before, e.1 = i) ∧ (!i, look !i) ∈ mid ∨ (!i, look !i) ∈ before := by
  have hlooks := hw.lastLook
  rw [movesOf_append] at hlooks
  rcases List.append_eq_singleton_iff.mp hlooks with ⟨hnone, hlook⟩ | ⟨hlook, -⟩
  · refine .inl ⟨fun e he => ?_, mem_movesOf.mp (by rw [hlook]; simp)⟩
    exact Bool.not_eq_not.mp (movesOf_eq_nil_iff.mp hnone e he)
  · exact .inr (mem_movesOf.mp (by rw [hlook]; simp))

end Writes

end Turns

/-! ## The node along the turns -/

section Main

variable {srv : Api.Server} {id : Int} {u v : NodeUpdate} {s s' : Site} {ms : List Moment}
  {n : Node}

/-- Others and looks leave the node as it is. -/
theorem Program.Chained.leavesNode (hc : Chained (LeavesNode id) s ms s')
    (hms : ∀ m ∈ ms, m.effect = .store (.getNode id)) : LeavesNode id s s' := by
  refine hc.keeps (I := LeavesNode id s) (fun s₁ s₂ h ho later => (ho later).trans (h later))
    (fun m hm h later => ?_) fun _ => rfl
  obtain ⟨site, e⟩ := m
  cases hms _ hm
  change (site.call _).2.store.node? later id = _
  rw [site.store_call_of_writes_nil rfl, h later]

/-- The node at the start of one of the moments. -/
theorem Program.Chained.leavesNode_site (hc : Chained (LeavesNode id) s ms s')
    (hms : ∀ m ∈ ms, m.effect = .store (.getNode id)) {m : Moment} (hm : m ∈ ms) :
    LeavesNode id s m.site := by
  obtain ⟨ms₁, ms₂, rfl⟩ := List.append_of_mem hm
  exact (chained_append.mp hc).1.leavesNode fun m' hm' => hms m' (List.mem_append_left _ hm')

/-- What is set is there after the write. -/
theorem NodeUpdate.holdsIn_write (hid : n.id = id)
    (h : (s.call (.updateNode (u.apply n))).1 = .ok ()) :
    u.HoldsIn (s.call (.updateNode (u.apply n))).2.store id := by
  obtain ⟨before, hnode⟩ := s.node?_of_updateNode h
  exact ⟨_, _, hid ▸ hnode, u.holds_over_apply⟩

/-- What another change sets is there after a write if it was when the node was read. -/
theorem NodeUpdate.Apart.holdsIn_write (ha : u.Apart v) (hid : n.id = id)
    (h : (s.call (.updateNode (v.apply n))).1 = .ok ()) :
    u.HoldsIn (s.call (.updateNode (v.apply n))).2.store id ↔ u.Holds n := by
  obtain ⟨before, hnode⟩ := s.node?_of_updateNode h
  rw [NodeUpdate.holdsIn_iff (hid ▸ hnode), ha.holds_over_apply]

/-- **Two changes at once**: of two changes of a node that set no field in common and are both
answered with success, the one that writes last keeps its fields.  The other keeps them exactly if
the last one had done nothing before the first write, or if the node had those fields before. -/
theorem Api.Server.change_kept_iff {u : Bool → NodeUpdate} {r : Bool → Http.Response}
    {h : List (Bool × Moment)}
    (hrun : Abreast (LeavesNode id) (fun i => (srv.updateNode id (u i)).response) s h
      (fun i => done (r i)) s')
    (hok : ∀ i, (r i).status = 200) (hapart : (u false).Apart (u true)) :
    ∃ i before, FirstWrite i before h ∧ (u !i).HoldsIn s'.store id ∧
      ((u i).HoldsIn s'.store id ↔ (∀ e ∈ before, e.1 = i) ∨ (u i).HoldsIn s.store id) := by
  have hbranch i := follows_updateNode (by simpa using hrun.follows (i := i) ⟨rfl, rfl⟩) (hok i)
  choose look write shown n hmoves hread hwrite using hbranch
  have hid i : (n i).id = id := by
    obtain ⟨row, -, hholds⟩ := Store.row_of_node? (hread i)
    exact hholds.id
  obtain ⟨i, before, mid, rest, hw⟩ := exists_writes hmoves (fun _ => rfl) (fun _ => rfl)
    fun _ => rfl
  obtain rfl := hw.turns
  have hlooks (e) (he : e ∈ before ++ mid ++ rest) : e.2.effect = .store (.getNode id) := by
    rcases hw.quiet e he with hm | hm <;> rw [hm]
  obtain ⟨hbefore, hmid, hrest⟩ : (∀ m ∈ before.map Prod.snd, m.effect = .store (.getNode id)) ∧
      (∀ m ∈ mid.map Prod.snd, m.effect = .store (.getNode id)) ∧
      ∀ m ∈ rest.map Prod.snd, m.effect = .store (.getNode id) := by
    simp only [List.mem_append, List.forall_mem_map] at hlooks ⊢
    exact ⟨fun e he => hlooks e (.inl (.inl he)), fun e he => hlooks e (.inl (.inr he)),
      fun e he => hlooks e (.inr he)⟩
  have hchain := hrun.chained
  rw [List.map_append, List.map_cons, List.map_append, List.map_cons] at hchain
  obtain ⟨hfirst, hchain⟩ := chained_append.mp hchain
  obtain ⟨hbetween, hlast⟩ := chained_append.mp hchain
  have hapart' : (u i).Apart (u !i) := by
    cases i
    · exact hapart
    · exact hapart.symm
  have hend (v : NodeUpdate) := (hlast.leavesNode hrest).holdsIn_iff (u := v)
  have hkept := (hend (u i)).trans (hapart'.holdsIn_write (hid _) (hwrite !i))
  refine ⟨i, before, ⟨_, _, rfl, rfl, fun e he => by
      rw [hlooks e (by simp [he])]; rfl⟩,
    (hend _).mpr (NodeUpdate.holdsIn_write (hid _) (hwrite !i)), ?_⟩
  rw [hkept, ← NodeUpdate.holdsIn_iff (hread !i)]
  rcases hw.looked with ⟨halone, hlook⟩ | hlook
  · -- it looked after the first write, and saw what that had set
    have hsaw := hbetween.leavesNode_site hmid (List.mem_map_of_mem hlook)
    exact iff_of_true (hsaw.holdsIn_iff.mpr (NodeUpdate.holdsIn_write (hid i) (hwrite i)))
      (.inl halone)
  · -- it looked before the first write, and saw the node as it was at the start
    have hsaw := hfirst.leavesNode_site hbefore (List.mem_map_of_mem hlook)
    rw [hsaw.holdsIn_iff, or_iff_right fun halone => ?_]
    exact absurd (halone _ hlook) (Bool.not_ne_self i)

end Main

/-! ## Both look before one writes -/

namespace Api.Server

/-- A store with one node, which is enabled. -/
def oneNode : Store :=
  ((Call.createNode ⟨⟨"http", "geo-2", 80, ""⟩, .secondary, true, [], 25, 10⟩).run .epoch .empty).2

/-- One change switches the node off, the other has it run fewer jobs. -/
def twoChanges : Bool → NodeUpdate
  | false => { NodeUpdate.none with enabled := some false }
  | true => { NodeUpdate.none with reposMaxCapacity := some 5 }

theorem apart_twoChanges : (twoChanges false).Apart (twoChanges true) :=
  ⟨.inr rfl, .inl rfl, .inl rfl, .inl rfl, .inl rfl⟩

/-- The two changes, and what they come to when they take turns. -/
def changes (i : Bool) : Program Http.Response :=
  ((⟨.standard, "http://geo-2/"⟩ : Server).updateNode 1 (twoChanges i)).response

/-- Look, look, write, write. -/
def overlapping : List (Bool × Moment) × (Bool → Program Http.Response) × Site :=
  inTurn [false, true, false, true, false, true] changes (.start .epoch oneNode [])

/-- Both changes are answered with success. -/
theorem abreast_overlapping : ∃ r : Bool → Http.Response,
    Abreast (LeavesNode 1) changes (.start .epoch oneNode []) overlapping.1 (fun i => done (r i))
      overlapping.2.2 ∧ ∀ i, (r i).status = 200 := by
  have hstatus : ∀ i, (overlapping.2.1 i).value?.map Http.Response.status = some 200 := by
    decide +kernel
  choose r hr hok using fun i => Option.map_eq_some_iff.mp (hstatus i)
  have hended : overlapping.2.1 = fun i => done (r i) := funext fun i => eq_done_of_value? (hr i)
  have hstart : Abreast (LeavesNode 1) changes (.start .epoch oneNode []) [] changes _ := .start
  exact ⟨r, hended ▸ hstart.inTurn [false, true, false, true, false, true], hok⟩

/-- The node afterwards runs fewer jobs, but is enabled. -/
theorem node?_overlapping : ∃ n, overlapping.2.2.store.node? .epoch 1 = some n ∧
    n.enabled = true ∧ n.reposMaxCapacity = 5 := by
  have hnode : (overlapping.2.2.store.node? .epoch 1).map
      (fun n => (n.enabled, n.reposMaxCapacity)) = some (true, 5) := by decide +kernel
  obtain ⟨n, hn, hfields⟩ := Option.map_eq_some_iff.mp hnode
  exact ⟨n, hn, congrArg Prod.fst hfields, congrArg Prod.snd hfields⟩

theorem change_kept_iff_overlapping : ∃ r : Bool → Http.Response,
    Abreast (LeavesNode 1) changes (.start .epoch oneNode []) overlapping.1 (fun i => done (r i))
      overlapping.2.2 ∧
    (∀ i, (r i).status = 200) ∧ (twoChanges false).Apart (twoChanges true) ∧
    ∃ i before, FirstWrite i before overlapping.1 ∧
      (twoChanges !i).HoldsIn overlapping.2.2.store 1 ∧
      ((twoChanges i).HoldsIn overlapping.2.2.store 1 ↔
        (∀ e ∈ before, e.1 = i) ∨ (twoChanges i).HoldsIn oneNode 1) := by
  obtain ⟨r, hrun, hok⟩ := abreast_overlapping
  exact ⟨r, hrun, hok, apart_twoChanges, change_kept_iff hrun hok apart_twoChanges⟩

/-- **A change is lost**: both are answered with success, and the node is still enabled. -/
theorem change_lost : oneNode.Reached ∧ (twoChanges false).Apart (twoChanges true) ∧
    ∃ r : Bool → Http.Response,
      Abreast (LeavesNode 1) changes (.start .epoch oneNode []) overlapping.1
        (fun i => done (r i)) overlapping.2.2 ∧
      (∀ i, (r i).status = 200) ∧ ¬ ∀ i, (twoChanges i).HoldsIn overlapping.2.2.store 1 := by
  obtain ⟨r, hrun, hok⟩ := abreast_overlapping
  obtain ⟨n, hn, henabled, -⟩ := node?_overlapping
  refine ⟨.call _ _ .empty, apart_twoChanges, r, hrun, hok, fun hboth => ?_⟩
  have hheld := (NodeUpdate.holdsIn_iff hn).mp (hboth false)
  cases henabled.symm.trans (hheld.enabled false rfl)

end Api.Server

end GeoReplication
