set_option autoImplicit false

/-!
# Foundation: bounded text formats

A decoder may accept many spellings of one value; the encoder writes one of them,
the canonical text, and both keep to one limit.  A canonical text can be longer
than the spelling that was read, so not all that decodes need encode again.
-/

namespace RatifyProtocol.Foundation

variable {ε β α : Type}

/-- A decoder, an encoder, the text the encoder writes and the limit on its length. -/
structure Format (ε β α : Type) where
  decode : List β → Except ε α
  encode : α → Except ε (List β)
  text : α → Except ε (List β)
  limit : Nat

namespace Format

variable {F : Format ε β α}

/-- What is decoded has a canonical text; the encoder writes that text and the decoder
reads it back, as long as it is within the limit. -/
structure Canonical (F : Format ε β α) : Prop where
  bounded : ∀ t a, F.decode t = .ok a → t.length ≤ F.limit
  written : ∀ t a, F.decode t = .ok a → ∃ e, F.text a = .ok e
  encodes : ∀ t a, F.decode t = .ok a → ∀ e,
    F.encode a = .ok e ↔ F.text a = .ok e ∧ e.length ≤ F.limit
  reads : ∀ t a, F.decode t = .ok a → ∀ e, F.text a = .ok e → e.length ≤ F.limit →
    F.decode e = .ok a

/-- The round trip of one decoded value `a`, whose canonical text is `e`. -/
structure RoundTrip (F : Format ε β α) (a : α) (e : List β) : Prop where
  text : F.text a = .ok e
  encodes : ∀ e', F.encode a = .ok e' ↔ e' = e ∧ e.length ≤ F.limit
  reads : F.decode e = .ok a ↔ e.length ≤ F.limit
  only : ∀ t' a', F.decode t' = .ok a' → F.encode a' = .ok e → a' = a

namespace Canonical

variable {t : List β} {a : α} {e : List β}

/-- What the encoder writes for a decoded value decodes to that value. -/
theorem decode_encode (h : F.Canonical) (ht : F.decode t = .ok a) (he : F.encode a = .ok e) :
    F.decode e = .ok a := by
  obtain ⟨htext, hlen⟩ := (h.encodes t a ht e).mp he
  exact h.reads t a ht e htext hlen

/-- Decoded values that encode alike are the same. -/
theorem encode_injOn (h : F.Canonical) {t' : List β} {a' : α} (ht : F.decode t = .ok a)
    (ht' : F.decode t' = .ok a') (he : F.encode a = .ok e) (he' : F.encode a' = .ok e) :
    a' = a := by
  have hread := h.decode_encode ht he
  have hread' := h.decode_encode ht' he'
  exact Except.ok.inj (hread'.symm.trans hread)

theorem roundTrip (h : F.Canonical) (ht : F.decode t = .ok a) : ∃ e, F.RoundTrip a e := by
  obtain ⟨e, he⟩ := h.written t a ht
  refine ⟨e, he, fun e' => ?_, ⟨h.bounded e a, h.reads t a ht e he⟩, ?_⟩
  · rw [h.encodes t a ht, he]
    constructor
    · rintro ⟨heq, hlen⟩
      obtain rfl := Except.ok.inj heq
      exact ⟨rfl, hlen⟩
    · rintro ⟨rfl, hlen⟩
      exact ⟨rfl, hlen⟩
  · intro t' a' ht' he'
    obtain ⟨htext, hlen⟩ := (h.encodes t' a' ht' e).mp he'
    have hread := h.reads t' a' ht' e htext hlen
    exact Except.ok.inj (hread.symm.trans (h.reads t a ht e he hlen))

end Canonical

end Format

end RatifyProtocol.Foundation
