import GeoReplication.Proofs.Queue.NoneTwice

/-!
# Proofs/Site/Frame — what an effect does, and what it leaves alone

One lemma for each kind of effect and each part of a site that it could touch.
-/

namespace GeoReplication.Site

/-! ## The store -/

/-- A call that is answered is carried out. -/
theorem run_of_call_ok {s : Site} {c : Call} {r : c.Reply} (h : (s.call c).1 = .ok r) :
    c.run s.now s.store = (.ok r, (s.call c).2.store) := by
  rw [call] at h ⊢
  split at h
  · cases h
  · exact Prod.ext h rfl

theorem reply_of_isOk {s : Site} {c : Call} (h : (s.call c).1.isOk = true) :
    ∃ r, (s.call c).1 = .ok r := by
  cases hr : (s.call c).1 with
  | ok r => exact ⟨r, rfl⟩
  | error f => rw [hr] at h; cases h

/-- Faults are errors, so a call overflows only if its operation does. -/
theorem call_ne_overflow {s : Site} {c : Call}
    (hc : ∀ o, (c.run s.now s.store).1 ≠ .error (.overflow o)) (o : Overflow) :
    (s.call c).1 ≠ .error (.overflow o) := by
  rw [call]
  split
  · exact fun h => by cases h
  · exact hc o

@[simp] theorem uptime_call (s : Site) (c : Call) : (s.call c).2.uptime = s.uptime := by
  rw [call]
  split <;> rfl

@[simp] theorem now_call (s : Site) (c : Call) : (s.call c).2.now = s.now := by
  rw [call]
  split <;> rfl

@[simp] theorem journal_call (s : Site) (c : Call) : (s.call c).2.journal = s.journal := by
  rw [call]
  split <;> rfl

/-- A call leaves the store alone, or is carried out. -/
theorem store_call (s : Site) (c : Call) :
    (s.call c).2.store = s.store ∨ (s.call c).2.store = (c.run s.now s.store).2 := by
  rw [call]
  split
  · exact .inl rfl
  · exact .inr rfl

@[simp] theorem store_askLease (s : Site) (c : LeaseCall) : (s.askLease c).2.store = s.store := by
  cases c with
  | obtain key ttl => rfl
  | renew key ttl =>
    simp only [askLease]
    split <;> rfl
  | cancel key =>
    simp only [askLease]
    split <;> rfl

/-- What a mirror makes happen while it copies: the project may be touched, then a copy be
requested for the node that its rule names. -/
theorem meanwhile_snd (s : Site) (c : Copying) : ∃ touched,
    (touched = s ∨ touched = (s.call (.touchProject c.project.id c.part s.now)).2) ∧
      ((s.meanwhile c).2 = touched ∨ ∃ n, c.rule.resyncNode = some n ∧
        (s.meanwhile c).2 = (touched.call (.requestResync n c.project.id c.part)).2) := by
  rw [meanwhile]
  by_cases htouch : c.rule.touch = true
  · rw [if_pos htouch]
    refine ⟨_, .inr rfl, ?_⟩
    rcases s.call (.touchProject c.project.id c.part s.now) with ⟨e | ⟨⟩, touched⟩
    · exact .inl rfl
    · rcases c.rule.resyncNode with _ | n
      · exact .inl rfl
      · exact .inr ⟨n, rfl, rfl⟩
  · rw [if_neg htouch]
    refine ⟨s, .inl rfl, ?_⟩
    rcases c.rule.resyncNode with _ | n
    · exact .inl rfl
    · exact .inr ⟨n, rfl, rfl⟩

/-! ## The faults -/

theorem errors_ask (kind : Call.Kind) :
    ∀ faults : List Fault, (Fault.ask kind faults).2.map Fault.error = faults.map Fault.error
  | [] => rfl
  | ⟨kind', skip, times, error⟩ :: faults => by
      have ih := errors_ask kind faults
      simp only [Fault.ask]
      by_cases hkind : kind' = kind
      · rw [if_pos hkind]
        rcases skip with _ | skip
        · rcases times with _ | _ | times
          · rfl
          · exact congrArg (error :: ·) ih
          · rfl
        · exact congrArg (error :: ·) ih
      · rw [if_neg hkind]
        exact congrArg (error :: ·) ih

/-- What fails an operation is the error of one of the faults. -/
theorem error_of_ask {kind : Call.Kind} {e : Error} :
    ∀ {faults : List Fault}, (Fault.ask kind faults).1 = some e → e ∈ faults.map Fault.error
  | [], h => by cases h
  | ⟨kind', skip, times, error⟩ :: faults, h => by
      simp only [Fault.ask] at h
      by_cases hkind : kind' = kind
      · rw [if_pos hkind] at h
        rcases skip with _ | skip
        · rcases times with _ | _ | times
          · cases h
            exact List.mem_cons_self
          · exact List.mem_cons_of_mem _ (error_of_ask h)
          · cases h
            exact List.mem_cons_self
        · exact List.mem_cons_of_mem _ (error_of_ask h)
      · rw [if_neg hkind] at h
        exact List.mem_cons_of_mem _ (error_of_ask h)

/-- Calls use faults up, but their errors stay what they are. -/
theorem errors_call (s : Site) (c : Call) :
    (s.call c).2.faults.map Fault.error = s.faults.map Fault.error := by
  rw [← errors_ask c.kind s.faults, call]
  split <;> next heq => rw [heq]

/-- What all rules of mirrors have in common, whatever they are still good for, the chosen one has
too, and the others keep it. -/
theorem choose_keeps {P : MirrorRule → Prop} (hsmooth : P .smooth)
    (htimes : ∀ r times, P r → P { r with times }) (id : Int) (part : Part) :
    ∀ {rules : List MirrorRule}, (∀ r ∈ rules, P r) →
      P (MirrorRule.choose id part rules).1 ∧ ∀ r ∈ (MirrorRule.choose id part rules).2, P r
  | [], h => ⟨hsmooth, h⟩
  | r :: rules, h => by
      obtain ⟨hr, hrules⟩ := List.forall_mem_cons.mp h
      have ih := choose_keeps hsmooth htimes id part hrules
      rw [MirrorRule.choose]
      split
      · exact ⟨hr, List.forall_mem_cons.mpr ⟨htimes r _ hr, hrules⟩⟩
      · exact ⟨ih.1, List.forall_mem_cons.mpr ⟨hr, ih.2⟩⟩

@[simp] theorem rules_call (s : Site) (c : Call) : (s.call c).2.rules = s.rules := by
  rw [call]
  split <;> rfl

@[simp] theorem rules_askLease (s : Site) (c : LeaseCall) : (s.askLease c).2.rules = s.rules := by
  cases c with
  | obtain key ttl => rfl
  | renew key ttl =>
    simp only [askLease]
    split <;> rfl
  | cancel key =>
    simp only [askLease]
    split <;> rfl

/-! ## The queues -/

/-- What becomes of a queue when something is done to it or to another. -/
theorem get?_onQueue (s : Site) (name name' : String) (c : QueueCall) {q : JobQueue}
    (hq : s.queues.get? name' = some q) :
    (s.onQueue name c).2.queues.get? name' = some (if name' = name then (c.run q).2 else q) := by
  simp only [onQueue, Queues.get?_set]
  by_cases hname : name' = name
  · subst hname
    rw [if_pos rfl, if_pos rfl, hq]
    rfl
  · rw [if_neg hname, if_neg hname, hq]

theorem onQueue_reply (s : Site) (name : String) (c : QueueCall) {q : JobQueue}
    (hq : s.queues.get? name = some q) : (s.onQueue name c).1 = (c.run q).1 := by
  rw [onQueue, hq]
  rfl

@[simp] theorem queues_call (s : Site) (c : Call) : (s.call c).2.queues = s.queues := by
  rw [call]
  split <;> rfl

@[simp] theorem queues_askLease (s : Site) (c : LeaseCall) :
    (s.askLease c).2.queues = s.queues := by
  cases c with
  | obtain key ttl => rfl
  | renew key ttl =>
    simp only [askLease]
    split <;> rfl
  | cancel key =>
    simp only [askLease]
    split <;> rfl

end GeoReplication.Site
