import GeoReplication.Proofs.Store.Leases
import Mathlib.Order.Defs.Unbundled

/-!
# Proofs/Store/Actions — where actions lead

`Action.Leads R` says that `R` relates every store to the one that an action leaves.  For a preorder
it goes through every way to build an action, so a whole operation does to the store what each of
its statements does.
-/

namespace GeoReplication

namespace Action

variable {α β : Type} {R : Store → Store → Prop}

/-- `R` relates the store before the action to the store after it. -/
def Leads (R : Store → Store → Prop) (a : Action α) : Prop := ∀ s, R s (a.run s).2

section Rules

variable [IsPreorder Store R]

theorem leads_pure (a : α) : (pure a : Action α).Leads R := fun s => refl_of R s

theorem leads_fail (e : Error) : (fail e : Action α).Leads R := fun s => refl_of R s

theorem leads_read (g : Store → Except Error α) : (read g).Leads R := fun s => refl_of R s

theorem leads_statement {g : Store → Except Error (α × Store)}
    (h : ∀ s a s', g s = .ok (a, s') → R s s') : (statement g).Leads R := fun s => by
  rw [run_statement]
  cases hg : g s with
  | error e => exact refl_of R s
  | ok r => exact h s r.1 r.2 hg

theorem Leads.bind {a : Action α} {next : α → Action β} (ha : a.Leads R)
    (hnext : ∀ x, (next x).Leads R) : (a >>= next).Leads R := fun s => by
  have hfirst := ha s
  rw [run_bind]
  rcases hrun : a.run s with ⟨e | x, s'⟩
  · rwa [hrun] at hfirst
  · rw [hrun] at hfirst
    exact trans_of R hfirst (hnext x s')

theorem Leads.transaction {a : Action α} (ha : a.Leads R) : (transaction a).Leads R := fun s => by
  have hrun := ha s
  rw [run_transaction]
  rcases ha : a.run s with ⟨e | x, s'⟩
  · exact refl_of R s
  · rwa [ha] at hrun

end Rules

/-- What an action answers that begins with another. -/
theorem run_bind_ok {a : Action α} {next : α → Action β} {s s' : Store} {y : β}
    (h : (a >>= next).run s = (.ok y, s')) :
    ∃ x s₁, a.run s = (.ok x, s₁) ∧ (next x).run s₁ = (.ok y, s') := by
  rw [run_bind] at h
  rcases hrun : a.run s with ⟨e | x, s₁⟩
  · rw [hrun] at h
    cases h
  · rw [hrun] at h
    exact ⟨x, s₁, rfl, h⟩

theorem run_statement_ok {g : Store → Except Error (α × Store)} {s s' : Store} {x : α}
    (h : (statement g).run s = (.ok x, s')) : g s = .ok (x, s') := by
  rw [run_statement] at h
  split at h
  · next hg =>
    cases h
    exact hg
  · cases h

theorem run_transaction_ok {a : Action α} {s s' : Store} {x : α}
    (h : (transaction a).run s = (.ok x, s')) : a.run s = (.ok x, s') := by
  rw [run_transaction] at h
  rcases hrun : a.run s with ⟨e | y, s₁⟩
  · rw [hrun] at h
    cases h
  · rwa [hrun] at h

end Action

theorem Call.leads_lift {α : Type} {R : Store → Store → Prop} {a : Action α} (ha : a.Leads R)
    (s : Store) : R s (lift a s).2 := by
  rw [snd_lift]
  exact ha s

/-! ## Creating and changing nodes -/

namespace Store

open GeoReplication.Action

variable {R : Store → Store → Prop} [IsPreorder Store R]

theorem leads_linkNamespaces (hlinks : ∀ s links, R s { s with links }) (nodeId : Int) :
    ∀ ids, (linkNamespaces nodeId ids).Leads R
  | [] => leads_pure ()
  | id :: ids => by
      refine Leads.bind (leads_statement fun s a s' h => ?_)
        fun _ => leads_linkNamespaces hlinks nodeId ids
      split at h
      · cases h
        exact refl_of R s
      · split at h
        · cases h
          exact hlinks s _
        · cases h

/-- A new node brings a row more. -/
theorem leads_createNode (hlinks : ∀ s links, R s { s with links })
    (hinsert : ∀ (s : Store) row, R s { s with nodes := s.nodes.insert row }) (now : Time.Instant)
    (n : NewNode) : (createNode now n).Leads R := by
  have hwrite : (insertNode now n).Leads R := by
    refine Leads.transaction (Leads.bind (leads_statement fun s a s' h => ?_) fun id =>
      Leads.bind (leads_linkNamespaces hlinks _ _) fun _ => leads_read _)
    split at h
    · cases h
    · cases h
      exact hinsert s _
  rw [createNode]
  split
  · refine Leads.bind (leads_read _) fun primary => ?_
    split
    · exact Leads.bind (leads_fail _) fun _ => hwrite
    · exact hwrite
  · exact hwrite

/-- A changed node has the row it had, changed. -/
theorem leads_updateNode (hlinks : ∀ s links, R s { s with links })
    (hmodify : ∀ (s : Store) id f, R s { s with nodes := s.nodes.modify id f }) (now : Time.Instant)
    (n : Node) : (updateNode now n).Leads R := by
  have hwrite : (replaceNode now n).Leads R := by
    refine Leads.transaction (Leads.bind (leads_statement fun s a s' h => ?_) fun _ =>
      Leads.bind (leads_statement ?_) fun _ => leads_linkNamespaces hlinks _ _)
    · split at h
      · cases h
      · dsimp only at h
        split at h
        · cases h
        · cases h
          exact hmodify s _ _
    · rintro s a s' ⟨⟩
      exact hlinks s _
  rw [updateNode]
  split
  · refine Leads.bind (leads_read _) fun primary => ?_
    split
    · split
      · exact Leads.bind (leads_fail _) fun _ => hwrite
      · exact hwrite
    · exact hwrite
  · exact hwrite

end Store

end GeoReplication
