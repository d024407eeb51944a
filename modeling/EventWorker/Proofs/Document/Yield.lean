import EventWorker.Document.Decode
import EventWorker.Proofs.Checks
import Mathlib.Algebra.Group.Int.Defs

/-!
# What decoders come to

Whatever a document is, what it is decoded as has the properties that its decoder sees to (`Yields`): an
integer is within its bounds, and a model is what setting fields makes of its defaults, one after another.

Main statement: `Yields.shape`.
-/

namespace EventWorker

open Document Decoder

variable {α β σ : Type}

/-- Whatever is decoded has the property. -/
def Yields (inner : Decoder α) (P : α → Prop) : Prop :=
  ∀ terms d a, inner terms d = .ok a → P a

namespace Yields

variable {inner : Decoder α} {P : α → Prop}

theorem enter {body : Terms → Except DecodeError β} {Q : β → Prop}
    (h : ∀ terms b, body terms = .ok b → Q b) {terms : Terms} {b : β}
    (hb : Decoder.enter terms body = .ok b) : Q b := by
  unfold Decoder.enter at hb
  split at hb
  · cases hb
  · exact h _ b hb

theorem natBelow (bound : Nat) : Yields (Decoder.natBelow bound) (· < bound) := by
  intro terms d n h
  obtain ⟨⟨negative, m⟩, -, h⟩ := Except.bind_eq_ok_iff.1 h
  dsimp only at h
  split at h
  · cases h
  · next hbound =>
    obtain rfl := Except.ok.inj h
    simp only [Bool.or_eq_true, decide_eq_true_eq, not_or] at hbound
    exact Nat.lt_of_not_le hbound.2

/-- **What holds of the defaults of a model and survives the setting of a field holds of whatever is
decoded.** -/
theorem shape {shape : Shape σ} {P : σ → Prop} (hinitial : P shape.initial)
    (hset : ∀ terms field d s t, P s → shape.set terms field d s = .ok t → P t) :
    Yields shape.decode P := by
  have hfields : ∀ terms (fields : List (Document × Document)) (seen : List String) (s : σ) r, P s →
      shape.setFields terms seen fields s = .ok r → P r.2 := by
    intro terms fields
    induction fields with
    | nil =>
      rintro seen s r hs ⟨rfl⟩
      exact hs
    | cons f fields ih =>
      intro seen s r hs h
      rw [Shape.setFields] at h
      obtain ⟨key, -, h⟩ := Except.bind_eq_ok_iff.1 h
      split at h
      · split at h
        · cases h
        · obtain ⟨t, ht, h⟩ := Except.bind_eq_ok_iff.1 h
          exact ih _ t r (hset terms key f.2 s t hs ht) h
      · split at h
        · cases h
        · obtain ⟨-, -, h⟩ := Except.bind_eq_ok_iff.1 h
          exact ih seen s r hs h
  have hitems : ∀ terms (ds : List Document) (fields : List String) (s t : σ), P s →
      shape.ofItems terms fields ds s = .ok t → P t := by
    intro terms ds
    induction ds with
    | nil =>
      intro fields s t hs h
      unfold Shape.ofItems at h
      split at h
      · cases h
      · obtain rfl := Except.ok.inj h
        exact hs
    | cons d ds ih =>
      intro fields s t hs h
      cases fields with
      | nil => cases h
      | cons field fields =>
        obtain ⟨u, hu, h⟩ := Except.bind_eq_ok_iff.1 h
        exact ih fields u t (hset terms field d s u hs hu) h
  have hrecord : ∀ terms fields s, shape.ofFields terms fields = .ok s → P s := by
    intro terms fields s h
    obtain ⟨⟨seen, t⟩, ht, h⟩ := Except.bind_eq_ok_iff.1 h
    dsimp only at h
    split at h
    · cases h
    · obtain rfl := Except.ok.inj h
      exact hfields terms fields [] shape.initial _ hinitial ht
  intro terms d s h
  unfold Shape.decode at h
  split at h
  · exact enter (fun terms b hb => hrecord terms _ b hb) h
  · split at h
    · exact enter (fun terms b hb => hitems terms _ _ _ b hinitial hb) h
    · cases h
  · split at h
    · exact hrecord terms [] s h
    · cases h
  · cases h

end Yields

end EventWorker
