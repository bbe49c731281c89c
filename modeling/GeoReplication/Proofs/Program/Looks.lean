import GeoReplication.Proofs.Program.Run
import GeoReplication.Proofs.Site.Frame
import GeoReplication.Proofs.Store.Places

/-!
# Proofs/Program/Looks — programs that only look

A program looks if, wherever it runs, it leaves the store as it found it and ends with a value or an
error, never with an overflow.  Operations without a table of their own look (`looks_call`), and so
does everything that is put together from what looks.
-/

namespace GeoReplication

/-! ## Operations that write nothing -/

/-- A store is its tables. -/
theorem Store.eq_of_table {s s' : Store} (h : ∀ p, s'.table p = s.table p) : s' = s := by
  cases s
  cases s'
  rw [Store.mk.injEq]
  exact ⟨h .namespaces, h .projects, h .nodes, h .links, h .registries, h .uploads, h .lfsObjects,
    h .lfsLinks, h .copies, h .failures, h .events, h .cursors, h .leases, h .heartbeat⟩

namespace Call

variable {c : Call}

theorem run_of_writes_nil (hc : c.writes = []) (now : Time.Instant) (s : Store) :
    (c.run now s).2 = s :=
  Store.eq_of_table fun p => c.sameBut_run now s p (by rw [hc]; exact List.not_mem_nil)

/-- Only the end of a lease overflows. -/
theorem run_ne_overflow (hc : c.writes = []) (now : Time.Instant) (s : Store) (o : Overflow) :
    (c.run now s).1 ≠ .error (.overflow o) := by
  cases c with
  | obtainLease key holder ttl => cases hc
  | renewLease key holder ttl => cases hc
  | _ => exact lift_ne_overflow _ _ _

end Call

theorem Site.store_call_of_writes_nil {c : Call} (hc : c.writes = []) (s : Site) :
    (s.call c).2.store = s.store := by
  rcases s.store_call c with hsame | hrun
  · exact hsame
  · rw [hrun, Call.run_of_writes_nil hc]

namespace Program

variable {α β : Type} {P : Site → Effect → Prop} {s : Site}

/-- The program leaves the store alone and does not overflow. -/
def Looks (t : Program α) : Prop :=
  ∀ s : Site, (t.run s).2.store = s.store ∧ ∀ o, (t.run s).1 ≠ .error (.overflow o)

theorem looks_pure (a : α) : (pure a : Program α).Looks := fun _ => ⟨rfl, fun _ h => by cases h⟩

theorem looks_fail (e : Error) : (fail e : Program α).Looks := fun _ => ⟨rfl, fun _ h => by cases h⟩

theorem looks_clock : clock.Looks := fun _ => ⟨rfl, fun _ h => by cases h⟩

theorem looks_call {c : Call} (hc : c.writes = []) : (call c).Looks := fun s => by
  rw [run_call]
  exact ⟨s.store_call_of_writes_nil hc, s.call_ne_overflow (Call.run_ne_overflow hc _ _)⟩

namespace Looks

variable {t : Program α}

theorem bind (h : t.Looks) {next : α → Program β} (hnext : ∀ a, (next a).Looks) :
    (t >>= next).Looks := fun s => by
  obtain ⟨hstore, hoverflow⟩ := h s
  rw [run_bind]
  rcases hrun : t.run s with ⟨f | a, s'⟩ <;> rw [hrun] at hstore hoverflow
  · exact ⟨hstore, fun o he => hoverflow o (congrArg _ (Except.error.inj he))⟩
  · exact ⟨((hnext a) s').1.trans hstore, ((hnext a) s').2⟩

theorem attempt (h : t.Looks) : t.attempt.Looks := fun s => by
  obtain ⟨hstore, hoverflow⟩ := h s
  rw [run_attempt]
  rcases hrun : t.run s with ⟨(e | o) | a, s'⟩ <;> rw [hrun] at hstore hoverflow
  · exact ⟨hstore, fun _ he => by cases he⟩
  · exact absurd rfl (hoverflow o)
  · exact ⟨hstore, fun _ he => by cases he⟩

/-- What looks and is caught ends with a value, and leaves the store as it was. -/
theorem achieves_attempt (h : t.Looks) {I : Store → Prop} (hI : I s.store) :
    Achieves P t.attempt s fun _ s' => I s'.store :=
  .attempt_of_ne_overflow (h s).2 fun _ => by rwa [(h s).1]

end Looks

end Program

end GeoReplication
