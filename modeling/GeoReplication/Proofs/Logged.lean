/-!
# Proofs/Logged — systems that go on, with a log of what was done

    start ── quiet ──▸ s₁ ── act e ──▸ s₂ ── quiet ──▸ s₃ ── act e' ──▸ …        log: [e, e', …]

Some steps of a system leave an entry in a log, the others are quiet.  `Logged.inv` carries an
invariant through a run, and `Logged.split` cuts a run where its log is cut.
-/

namespace GeoReplication

variable {σ ε : Type} {quiet : σ → σ → Prop} {act : σ → ε → σ → Prop} {start s s' : σ}
  {log : List ε}

/-- What can be reached from `start`, with the log of the steps, oldest first. -/
inductive Logged (quiet : σ → σ → Prop) (act : σ → ε → σ → Prop) (start : σ) : List ε → σ → Prop
  | start : Logged quiet act start [] start
  | quiet {log : List ε} {s s' : σ} :
    Logged quiet act start log s → quiet s s' → Logged quiet act start log s'
  | act {log : List ε} {e : ε} {s s' : σ} :
    Logged quiet act start log s → act s e s' → Logged quiet act start (log ++ [e]) s'

namespace Logged

/-- **An invariant of every step holds in every run.** -/
theorem inv {P : List ε → σ → Prop} (hr : Logged quiet act start log s) (h0 : P [] start)
    (hquiet : ∀ {log s s'}, P log s → quiet s s' → P log s')
    (hact : ∀ {log s e s'}, P log s → act s e s' → P (log ++ [e]) s') : P log s := by
  induction hr with
  | start => exact h0
  | quiet _ hq ih => exact hquiet ih hq
  | act _ ha ih => exact hact ih ha

/-- One run after another. -/
theorem append {log' : List ε} (hr : Logged quiet act start log s)
    (hr' : Logged quiet act s log' s') : Logged quiet act start (log ++ log') s' := by
  induction hr' with
  | start => rwa [List.append_nil]
  | quiet _ hq ih => exact ih.quiet hq
  | act _ ha ih => rw [← List.append_assoc]; exact ih.act ha

/-- Where a log is cut, its run is. -/
theorem split {before after : List ε} (hr : Logged quiet act start (before ++ after) s) :
    ∃ mid, Logged quiet act start before mid ∧ Logged quiet act mid after s := by
  generalize hlog : before ++ after = log at hr
  induction hr generalizing after with
  | start =>
    obtain ⟨rfl, rfl⟩ := List.append_eq_nil_iff.mp hlog
    exact ⟨start, .start, .start⟩
  | quiet _ hq ih =>
    obtain ⟨mid, hbefore, hafter⟩ := ih hlog
    exact ⟨mid, hbefore, hafter.quiet hq⟩
  | @act log e s s' hr ha ih =>
    rcases List.eq_nil_or_concat after with rfl | ⟨after, last, rfl⟩
    · rw [List.append_nil] at hlog
      exact ⟨s', hlog ▸ hr.act ha, .start⟩
    · rw [List.concat_eq_append] at hlog ⊢
      rw [← List.append_assoc] at hlog
      obtain ⟨hinit, hlast⟩ := List.append_inj' hlog rfl
      obtain rfl : last = e := (List.cons.inj hlast).1
      obtain ⟨mid, hbefore, hafter⟩ := ih hinit
      exact ⟨mid, hbefore, hafter.act ha⟩

/-- The first logged step of a run. -/
theorem uncons {e : ε} {after : List ε} (hr : Logged quiet act start (e :: after) s) :
    ∃ s₁ s₂, Logged quiet act start [] s₁ ∧ act s₁ e s₂ ∧ Logged quiet act s₂ after s := by
  generalize hlog : e :: after = log at hr
  induction hr generalizing after with
  | start => cases hlog
  | quiet _ hq ih =>
    obtain ⟨s₁, s₂, hbefore, hstep, hafter⟩ := ih hlog
    exact ⟨s₁, s₂, hbefore, hstep, hafter.quiet hq⟩
  | @act log e' s s' hr ha ih =>
    cases log with
    | nil =>
      obtain ⟨rfl, rfl⟩ := List.cons.inj hlog
      exact ⟨s, s', hr, ha, .start⟩
    | cons first rest =>
      obtain ⟨rfl, rfl⟩ := List.cons.inj hlog
      obtain ⟨s₁, s₂, hbefore, hstep, hafter⟩ := ih rfl
      exact ⟨s₁, s₂, hbefore, hstep, hafter.act ha⟩

/-- A logged step, with the run up to it and the run after it. -/
theorem split_cons {before after : List ε} {e : ε}
    (hr : Logged quiet act start (before ++ e :: after) s) :
    ∃ s₁ s₂, Logged quiet act start before s₁ ∧ act s₁ e s₂ ∧ Logged quiet act s₂ after s := by
  obtain ⟨mid, hbefore, hafter⟩ := hr.split
  obtain ⟨s₁, s₂, hquiet, hstep, hrest⟩ := hafter.uncons
  have hupto := hbefore.append hquiet
  rw [List.append_nil] at hupto
  exact ⟨s₁, s₂, hupto, hstep, hrest⟩

end Logged

end GeoReplication
