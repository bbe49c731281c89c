import GeoReplication.Api.Refusal
import GeoReplication.Proofs.Program.Follows

/-!
# Proofs/Api/Handlers — handlers that end well

A handler is a program that may end in a refusal.  One that did not has gone through all of its
parts, and each of them ended with a value: `Handler.follows_bind` and its like take the history of
such a run apart.  A refusal is never taken for a success (`Handler.Declines`).
-/

namespace GeoReplication.Api.Handler

open GeoReplication.Http

variable {α β : Type} {x : Handler α} {next : α → Handler β} {h : List Moment}

/-- However it goes, a refusal has a status that says so. -/
def Declines (x : Handler α) : Prop :=
  ∀ h refusal, x.run.Follows h (.ok (.error refusal)) → 400 ≤ refusal.status

theorem Declines.bind (hx : x.Declines) (hnext : ∀ a, (next a).Declines) :
    (x >>= next).Declines := by
  intro h refusal hf
  rcases Program.follows_bind.mp hf with ⟨f, -, hf⟩ | ⟨r, h₁, h₂, rfl, hr, hrest⟩
  · cases hf
  · cases r with
    | ok a => exact hnext a h₂ refusal hrest
    | error refusal' =>
      obtain ⟨-, hsame⟩ := hrest
      cases hsame
      exact hx h₁ refusal hr

theorem declines_pure (a : α) : (pure a : Handler α).Declines := fun _ _ hf => by cases hf.2

theorem declines_during (context : String) (t : Program α) : (during context t).Declines := by
  intro h refusal hf
  rcases Program.follows_bind.mp hf with ⟨f, -, hf⟩ | ⟨r, h₁, h₂, rfl, -, hr⟩
  · cases hf
  · cases r with
    | ok a => cases hr.2
    | error e =>
      obtain ⟨-, hsame⟩ := hr
      cases hsame
      cases e <;> simp [Refusal.ofError]

theorem declines_orMissing (message : String) (o : Option α) : (orMissing message o).Declines := by
  intro h refusal hf
  cases o with
  | some a => cases hf.2
  | none =>
    cases hf.2
    simp [Refusal.missing]

theorem follows_bind {b : β} (hf : (x >>= next).run.Follows h (.ok (.ok b))) :
    ∃ a h₁ h₂, h = h₁ ++ h₂ ∧ x.run.Follows h₁ (.ok (.ok a)) ∧
      (next a).run.Follows h₂ (.ok (.ok b)) := by
  rcases Program.follows_bind.mp hf with ⟨f, -, hf⟩ | ⟨r, h₁, h₂, rfl, hx, hnext⟩
  · cases hf
  · cases r with
    | ok a => exact ⟨a, h₁, h₂, rfl, hx, hnext⟩
    | error refusal => exact absurd hnext.2 (by rintro ⟨⟩)

theorem follows_during {context : String} {t : Program α} {a : α}
    (hf : (during context t).run.Follows h (.ok (.ok a))) : t.Follows h (.ok a) := by
  rcases Program.follows_bind.mp hf with ⟨f, -, hf⟩ | ⟨r, h₁, h₂, rfl, ht, hr⟩
  · cases hf
  · cases r with
    | ok b =>
      obtain ⟨rfl, hb⟩ := hr
      cases hb
      rw [List.append_nil]
      exact Program.follows_attempt.mp ht
    | error e => exact absurd hr.2 (by rintro ⟨⟩)

theorem follows_orMissing {message : String} {o : Option α} {a : α}
    (hf : (orMissing message o).run.Follows h (.ok (.ok a))) : h = [] ∧ o = some a := by
  cases o with
  | none => exact absurd hf.2 (by rintro ⟨⟩)
  | some b =>
    obtain ⟨rfl, hb⟩ := hf
    cases hb
    exact ⟨rfl, rfl⟩

/-- A response that is no refusal is what the handler ended with. -/
theorem Declines.follows_response {x : Handler Response} (hx : x.Declines) {r : Response}
    (hf : x.response.Follows h (.ok r)) (hr : r.status < 400) : x.run.Follows h (.ok (.ok r)) := by
  rcases Program.follows_bind.mp hf with ⟨f, -, hf⟩ | ⟨o, h₁, h₂, rfl, hrun, ho⟩
  · cases hf
  · cases o with
    | ok r' =>
      obtain ⟨rfl, hr'⟩ := ho
      cases hr'
      rwa [List.append_nil]
    | error refusal =>
      obtain ⟨-, hr'⟩ := ho
      cases hr'
      exact absurd hr (Nat.not_lt.mpr (hx h₁ refusal hrun))

end GeoReplication.Api.Handler
