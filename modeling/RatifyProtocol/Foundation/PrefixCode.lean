import RatifyProtocol.Foundation.Text
set_option autoImplicit false

/-!
# Foundation: prefix codes

A writer whose output can be followed by anything and still be told from every
other output.  `PrefixCode V R enc` says so of the values in `V`, up to the
relation `R`: two outputs with tails that agree come from `R`-related values and
have equal tails.  Prefix codes compose under concatenation, which is what makes
a layout of fields injective.  A `DelimitedCode` is one only where a delimiter
follows, as for numbers in a list.
-/

namespace RatifyProtocol.Foundation

variable {α β γ : Type}

/-- On `V`, outputs of `enc` that agree up to their tails come from related
values, and the tails agree. -/
def PrefixCode (V : α → Prop) (R : α → α → Prop) (enc : α → List β) : Prop :=
  ∀ ⦃a b : α⦄, V a → V b → ∀ ⦃r s : List β⦄, enc a ++ r = enc b ++ s → R a b ∧ r = s

namespace PrefixCode

variable {V W : α → Prop} {R S : α → α → Prop} {enc enc' : α → List β}

/-- Without tails: equal outputs come from related values. -/
theorem related (h : PrefixCode V R enc) {a b : α} (ha : V a) (hb : V b)
    (heq : enc a = enc b) : R a b :=
  (h ha hb (congrArg (· ++ []) heq)).1

theorem mono (h : PrefixCode V R enc) (hV : ∀ a, W a → V a) (hR : ∀ a b, R a b → S a b) :
    PrefixCode W S enc := by
  intro a b ha hb r s heq
  obtain ⟨hab, hrs⟩ := h (hV a ha) (hV b hb) heq
  exact ⟨hR a b hab, hrs⟩

/-- A fixed text carries nothing and delimits itself. -/
theorem const (t : List β) : PrefixCode V (fun _ _ => True) fun _ => t := by
  intro a b _ _ r s heq
  exact ⟨trivial, List.append_cancel_left heq⟩

/-- The code of one part of a value. -/
theorem comap (h : PrefixCode V R enc) (f : γ → α) :
    PrefixCode (fun c => V (f c)) (fun c d => R (f c) (f d)) fun c => enc (f c) :=
  fun _ _ hc hd _ _ heq => h hc hd heq

/-- One part after the other. -/
theorem append (h : PrefixCode V R enc) (h' : PrefixCode W S enc') :
    PrefixCode (fun a => V a ∧ W a) (fun a b => R a b ∧ S a b) fun a => enc a ++ enc' a := by
  intro a b ha hb r s heq
  simp only [List.append_assoc] at heq
  obtain ⟨hR, hrest⟩ := h ha.1 hb.1 heq
  obtain ⟨hS, htails⟩ := h' ha.2 hb.2 hrest
  exact ⟨⟨hR, hS⟩, htails⟩

/-- A part behind a fixed text. -/
theorem tag (t : List β) (h : PrefixCode V R enc) : PrefixCode V R fun a => t ++ enc a :=
  ((const t).append h).mono (fun _ ha => ⟨trivial, ha⟩) fun _ _ hab => hab.2

/-- A concatenation of outputs that are not empty determines the outputs. -/
theorem flatMap (h : PrefixCode V R enc) (hne : ∀ a, V a → enc a ≠ []) {as bs : List α}
    (has : ∀ a ∈ as, V a) (hbs : ∀ b ∈ bs, V b) (heq : as.flatMap enc = bs.flatMap enc) :
    as.map enc = bs.map enc := by
  induction as generalizing bs with
  | nil =>
    cases bs with
    | nil => rfl
    | cons b bs =>
      have hnil : enc b = [] := (List.append_eq_nil_iff.mp heq.symm).1
      exact absurd hnil (hne b (hbs b List.mem_cons_self))
  | cons a as ih =>
    cases bs with
    | nil =>
      have hnil : enc a = [] := (List.append_eq_nil_iff.mp heq).1
      exact absurd hnil (hne a (has a List.mem_cons_self))
    | cons b bs =>
      simp only [List.flatMap_cons] at heq
      have htails := (h (has a List.mem_cons_self) (hbs b List.mem_cons_self) heq).2
      have hheads : enc a = enc b := by
        rw [htails] at heq
        exact List.append_cancel_right heq
      have hrest := ih (fun x hx => has x (List.mem_cons_of_mem _ hx))
        (fun x hx => hbs x (List.mem_cons_of_mem _ hx)) htails
      rw [List.map_cons, List.map_cons, hheads, hrest]

end PrefixCode

/-- The list goes on with a symbol of `D`. -/
def StartsIn (D : β → Prop) (r : List β) : Prop := ∃ c t, r = c :: t ∧ D c

theorem StartsIn.cons {D : β → Prop} {c : β} (hc : D c) (t : List β) : StartsIn D (c :: t) :=
  ⟨c, t, rfl, hc⟩

/-- A code that is a prefix code wherever a delimiter follows. -/
def DelimitedCode (D : β → Prop) (V : α → Prop) (R : α → α → Prop) (enc : α → List β) : Prop :=
  ∀ ⦃a b : α⦄, V a → V b → ∀ ⦃r s : List β⦄, StartsIn D r → StartsIn D s →
    enc a ++ r = enc b ++ s → R a b ∧ r = s

theorem PrefixCode.delimited {D : β → Prop} {V : α → Prop} {R : α → α → Prop}
    {enc : α → List β} (h : PrefixCode V R enc) : DelimitedCode D V R enc :=
  fun _ _ ha hb _ _ _ _ heq => h ha hb heq

namespace DelimitedCode

variable {D : β → Prop} {V W : α → Prop} {R S : α → α → Prop} {enc : α → List β}

/-- The equation first, the delimiters it shows after it. -/
theorem cut (h : DelimitedCode D V R enc) {a b : α} (ha : V a) (hb : V b) {r s : List β}
    (heq : enc a ++ r = enc b ++ s) (hr : StartsIn D r) (hs : StartsIn D s) : R a b ∧ r = s :=
  h ha hb hr hs heq

/-- Tokens without delimiters in them. -/
theorem ofFree (hfree : ∀ a, V a → ∀ c ∈ enc a, ¬ D c)
    (hinj : ∀ a b, V a → V b → enc a = enc b → R a b) : DelimitedCode D V R enc := by
  have split : ∀ t u r s : List β, (∀ c ∈ t, ¬ D c) → (∀ c ∈ u, ¬ D c) → StartsIn D r →
      StartsIn D s → t ++ r = u ++ s → t = u ∧ r = s := by
    intro t
    induction t with
    | nil =>
      intro u r s _ hu hr _ heq
      cases u with
      | nil => exact ⟨rfl, heq⟩
      | cons y u =>
        obtain ⟨c, tail, rfl, hc⟩ := hr
        obtain rfl := (List.cons.inj heq).1
        exact absurd hc (hu c List.mem_cons_self)
    | cons x t ih =>
      intro u r s ht hu hr hs heq
      cases u with
      | nil =>
        obtain ⟨c, tail, rfl, hc⟩ := hs
        obtain rfl := (List.cons.inj heq).1
        exact absurd hc (ht _ List.mem_cons_self)
      | cons y u =>
        obtain ⟨rfl, htail⟩ := List.cons.inj heq
        obtain ⟨rfl, hrs⟩ := ih u r s (fun c hc => ht c (List.mem_cons_of_mem _ hc))
          (fun c hc => hu c (List.mem_cons_of_mem _ hc)) hr hs htail
        exact ⟨rfl, hrs⟩
  intro a b ha hb r s hr hs heq
  obtain ⟨htok, hrs⟩ := split _ _ r s (hfree a ha) (hfree b hb) hr hs heq
  exact ⟨hinj a b ha hb htok, hrs⟩

/-- Items with a separator between neighbours and a closing symbol. -/
theorem separated (h : DelimitedCode D V R enc) (sep closing : β) (hsep : D sep)
    (hclosing : D closing) (hne : sep ≠ closing)
    (hopens : ∀ a, V a → ∃ c t, enc a = c :: t ∧ c ≠ closing) :
    PrefixCode (fun as : List α => ∀ a ∈ as, V a) (List.Forall₂ R)
      fun as => ((as.map enc).intersperse [sep]).flatten ++ [closing] := by
  -- A list that is not empty does not begin with the closing symbol.
  have hfront : ∀ (b : α) (bs : List α), V b → ∀ r s : List β,
      (((b :: bs).map enc).intersperse [sep]).flatten ++ closing :: s ≠ closing :: r := by
    intro b bs hb r s heq
    obtain ⟨c, t, henc, hc⟩ := hopens b hb
    cases bs <;> simp [henc] at heq <;> exact hc heq.1
  have key : ∀ as bs : List α, (∀ a ∈ as, V a) → (∀ b ∈ bs, V b) → ∀ r s : List β,
      ((as.map enc).intersperse [sep]).flatten ++ closing :: r
        = ((bs.map enc).intersperse [sep]).flatten ++ closing :: s →
      List.Forall₂ R as bs ∧ r = s := by
    intro as
    induction as with
    | nil =>
      intro bs _ hbs r s heq
      cases bs with
      | nil => exact ⟨.nil, (List.cons.inj heq).2⟩
      | cons b bs => exact absurd heq.symm (hfront b bs (hbs b List.mem_cons_self) r s)
    | cons a as ih =>
      intro bs has hbs r s heq
      have ha := has a List.mem_cons_self
      cases bs with
      | nil => exact absurd heq (hfront a as ha s r)
      | cons b bs =>
        have hb := hbs b List.mem_cons_self
        cases as with
        | nil =>
          cases bs with
          | nil =>
            simp only [List.map_cons, List.map_nil, List.intersperse_singleton,
              List.flatten_cons, List.flatten_nil, List.append_nil] at heq
            obtain ⟨hab, htails⟩ := h ha hb (.cons hclosing r) (.cons hclosing s) heq
            exact ⟨.cons hab .nil, (List.cons.inj htails).2⟩
          | cons b' bs =>
            simp only [List.map_cons, List.map_nil, List.intersperse_singleton,
              List.intersperse_cons_cons, List.flatten_cons, List.flatten_nil, List.append_nil,
              List.append_assoc, List.singleton_append] at heq
            obtain ⟨-, htails⟩ := h ha hb (.cons hclosing r) (.cons hsep _) heq
            exact absurd (List.cons.inj htails).1.symm hne
        | cons a' as =>
          cases bs with
          | nil =>
            simp only [List.map_cons, List.map_nil, List.intersperse_singleton,
              List.intersperse_cons_cons, List.flatten_cons, List.flatten_nil, List.append_nil,
              List.append_assoc, List.singleton_append] at heq
            obtain ⟨-, htails⟩ := h ha hb (.cons hsep _) (.cons hclosing s) heq
            exact absurd (List.cons.inj htails).1 hne
          | cons b' bs =>
            simp only [List.map_cons, List.intersperse_cons_cons, List.flatten_cons,
              List.append_assoc, List.singleton_append] at heq
            obtain ⟨hab, htails⟩ := h ha hb (.cons hsep _) (.cons hsep _) heq
            obtain ⟨hrest, hrs⟩ := ih (b' :: bs) (fun x hx => has x (List.mem_cons_of_mem _ hx))
              (fun x hx => hbs x (List.mem_cons_of_mem _ hx)) r s (List.cons.inj htails).2
            exact ⟨.cons hab hrest, hrs⟩
  intro as bs has hbs r s heq
  simp only [List.append_assoc, List.singleton_append] at heq
  exact key as bs has hbs r s heq

end DelimitedCode

end RatifyProtocol.Foundation
