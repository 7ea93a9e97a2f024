import RatifyProtocol.V2.FooterRules
set_option autoImplicit false

/-!
# V2: the text of a footer

The POSIX TZ grammar as relations between texts and what they say, and that
`tzset` reads by it: every number lies in its range, the sign of an offset is
turned, a missing daylight offset is one hour ahead, missing rules are those of
the United States.
-/

namespace RatifyProtocol.V2

open Foundation

/-! ## The grammar -/

/-- The value of decimal digits read after `num`. -/
def digitsValue (num : Int) (text : Bytes) : Int :=
  text.foldl (fun n c => n * 10 + (c.toNat - 48)) num

/-- Decimal digits of a number in a range. -/
structure NumberText (min max : Int) (text : Bytes) (n : Int) : Prop where
  nonempty : text ≠ []
  digits : ∀ c ∈ text, isAsciiDigit c = true
  value : digitsValue 0 text = n
  range : min ≤ n ∧ n ≤ max

/-- `hh[:mm[:ss]]`, in seconds. -/
inductive ClockText : Bytes → Int → Prop
  | hours {h : Bytes} {hv : Int} (hh : NumberText 0 168 h hv) : ClockText h (hv * 3600)
  | minutes {h m : Bytes} {hv mv : Int} (hh : NumberText 0 168 h hv)
      (hm : NumberText 0 59 m mv) : ClockText (h ++ ascii ':' :: m) (hv * 3600 + mv * 60)
  | seconds {h m s : Bytes} {hv mv sv : Int} (hh : NumberText 0 168 h hv)
      (hm : NumberText 0 59 m mv) (hs : NumberText 0 59 s sv) :
      ClockText (h ++ ascii ':' :: (m ++ ascii ':' :: s)) (hv * 3600 + mv * 60 + sv)

/-- A clock with an optional sign. -/
inductive OffsetText : Bytes → Int → Prop
  | plain {t : Bytes} {n : Int} (h : ClockText t n) : OffsetText t n
  | plus {t : Bytes} {n : Int} (h : ClockText t n) : OffsetText (ascii '+' :: t) n
  | minus {t : Bytes} {n : Int} (h : ClockText t n) : OffsetText (ascii '-' :: t) (-n)

/-- Three letters or more, or any text in angle brackets. -/
inductive NameText : Bytes → Bytes → Prop
  | plain {name : Bytes} (hlen : 3 ≤ name.length) (hfree : ∀ c ∈ name, endsName c = false) :
      NameText name name
  | quoted {name : Bytes} (hfree : ascii '>' ∉ name) :
      NameText (ascii '<' :: (name ++ [ascii '>'])) name

/-- `Jn`, `n` or `Mm.w.d`. -/
inductive RuleDayText : Bytes → RuleKind → Int → Int → Int → Prop
  | julian {t : Bytes} {n : Int} (h : NumberText 1 365 t n) :
      RuleDayText (ascii 'J' :: t) .julian n 0 0
  | doy {t : Bytes} {n : Int} (h : NumberText 0 365 t n) : RuleDayText t .doy n 0 0
  | monthWeekDay {m w d : Bytes} {mv wv dv : Int} (hm : NumberText 1 12 m mv)
      (hw : NumberText 1 5 w wv) (hd : NumberText 0 6 d dv) :
      RuleDayText (ascii 'M' :: (m ++ ascii '.' :: (w ++ ascii '.' :: d))) .monthWeekDay dv wv mv

/-- The day of a rule and its time, two o'clock when none is given. -/
inductive RuleText : Bytes → Rule → Prop
  | plain {t : Bytes} {kind : RuleKind} {day week mon : Int}
      (h : RuleDayText t kind day week mon) : RuleText t ⟨kind, day, week, mon, 7200⟩
  | timed {t o : Bytes} {kind : RuleKind} {day week mon time : Int}
      (h : RuleDayText t kind day week mon) (ho : OffsetText o time) :
      RuleText (t ++ ascii '/' :: o) ⟨kind, day, week, mon, time⟩

/-- The daylight offset: the text of one, or one hour ahead of standard time. -/
inductive DstOffsetText (stdOffset : Int) : Bytes → Int → Prop
  | ahead : DstOffsetText stdOffset [] (stdOffset + 3600)
  | given {t : Bytes} {n : Int} (h : OffsetText t n) : DstOffsetText stdOffset t (-n)

/-- The two rules, the default ones when none are given. -/
inductive RulesText : Bytes → Rule → Rule → Prop
  | given {sep : UInt8} {a b : Bytes} {startRule endRule : Rule}
      (hsep : sep = ascii ',' ∨ sep = ascii ';') (ha : RuleText a startRule)
      (hb : RuleText b endRule) : RulesText (sep :: (a ++ ascii ',' :: b)) startRule endRule
  | default {startRule endRule : Rule} (h : RulesText defaultRules startRule endRule) :
      RulesText [] startRule endRule

/-- A TZ string.  Its offsets are added to local time to get UTC, those of the
footer to UTC to get local time.  After standard time alone a comma ends the
reading. -/
inductive FooterText : Bytes → Footer → Prop
  | standard {a b rest name : Bytes} {off : Int} (ha : NameText a name) (hb : OffsetText b off)
      (hrest : rest = [] ∨ rest.head? = some (ascii ',')) :
      FooterText (a ++ (b ++ rest)) (.standard name (-off))
  | seasonal {a b c d e stdName dstName : Bytes} {off dstOffset : Int} {startRule endRule : Rule}
      (ha : NameText a stdName) (hb : OffsetText b off) (hc : NameText c dstName)
      (hd : DstOffsetText (-off) d dstOffset) (he : RulesText e startRule endRule) :
      FooterText (a ++ (b ++ (c ++ (d ++ e))))
        (.seasonal stdName (-off) dstName dstOffset startRule endRule)

/-! ## Reading by the grammar -/

theorem tzsetNumFrom_sound {min max : Int} {isFirst : Bool} {num n : Int} {s rest : Bytes}
    (hnum : num ≤ max) (h : tzsetNumFrom min max isFirst num s = some (n, rest)) :
    ∃ text, s = text ++ rest ∧ (∀ c ∈ text, isAsciiDigit c = true) ∧ digitsValue num text = n
      ∧ (min ≤ n ∧ n ≤ max) ∧ (isFirst = true → s ≠ [] → text ≠ []) := by
  induction s generalizing isFirst num with
  | nil =>
    unfold tzsetNumFrom at h
    split at h
    · cases h
    · rename_i hmin
      simp only [Option.some.injEq, Prod.mk.injEq] at h
      obtain ⟨rfl, rfl⟩ := h
      exact ⟨[], rfl, by simp, rfl, ⟨not_lt.mp hmin, hnum⟩, fun _ hne => absurd rfl hne⟩
  | cons c s ih =>
    unfold tzsetNumFrom at h
    split at h
    · rename_i hdigit
      split at h
      · cases h
      · rename_i hstop
        simp only [Option.some.injEq, Prod.mk.injEq] at h
        obtain ⟨rfl, rfl⟩ := h
        simp only [Bool.or_eq_true, decide_eq_true_eq, not_or, not_lt, Bool.not_eq_true] at hstop
        refine ⟨[], rfl, by simp, rfl, ⟨hstop.2, hnum⟩, fun hfirst => ?_⟩
        rw [hfirst] at hstop
        exact absurd hstop.1 (by decide)
    · rename_i hdigit
      simp only [Bool.not_eq_true, Bool.not_eq_false'] at hdigit
      dsimp only at h
      split at h
      · cases h
      · rename_i hmax
        obtain ⟨text, rfl, hdigits, hvalue, hrange, -⟩ := ih (not_lt.mp hmax) h
        refine ⟨c :: text, rfl, ?_, hvalue, hrange, fun _ _ => List.cons_ne_nil _ _⟩
        intro x hx
        obtain rfl | hx := List.mem_cons.mp hx
        · exact hdigit
        · exact hdigits x hx

theorem tzsetNum_sound {min max n : Int} {s rest : Bytes} (hmax : 0 ≤ max)
    (h : tzsetNum s min max = some (n, rest)) :
    ∃ text, s = text ++ rest ∧ NumberText min max text n := by
  unfold tzsetNum at h
  split at h
  · cases h
  · rename_i hne
    obtain ⟨text, hs, hdigits, hvalue, hrange, hnonempty⟩ := tzsetNumFrom_sound hmax h
    exact ⟨text, hs, hnonempty rfl hne, hdigits, hvalue, hrange⟩

/-- A byte that a reader looked at stands before the rest. -/
theorem eq_cons_tail {s : Bytes} {c : UInt8} (h : s.head? = some c) : s = c :: s.tail := by
  cases s with
  | nil => cases h
  | cons x s =>
    obtain rfl := Option.some.inj h
    rfl

/-- The part of `tzset_offset` after the sign. -/
theorem clock_sound (neg : Bool) {s rest : Bytes} {n : Int}
    (h : (do
      let (hours, s) ← tzsetNum s 0 (24 * 7)
      if s.head? ≠ some (ascii ':') then some (if neg then -(hours * 3600) else hours * 3600, s)
      else do
        let (mins, s) ← tzsetNum s.tail 0 59
        if s.head? ≠ some (ascii ':') then
          some (if neg then -(hours * 3600 + mins * 60) else hours * 3600 + mins * 60, s)
        else do
          let (secs, s) ← tzsetNum s.tail 0 59
          some (if neg then -(hours * 3600 + mins * 60 + secs)
            else hours * 3600 + mins * 60 + secs, s)) = some (n, rest)) :
    ∃ text value, s = text ++ rest ∧ ClockText text value ∧ n = if neg then -value else value := by
  simp only [Option.bind_eq_bind, Option.bind_eq_some_iff] at h
  obtain ⟨⟨hv, s₁⟩, hh, h⟩ := h
  obtain ⟨ht, rfl, hhour⟩ := tzsetNum_sound (by decide) hh
  dsimp only at h
  split at h
  · simp only [Option.some.injEq, Prod.mk.injEq] at h
    obtain ⟨rfl, rfl⟩ := h
    exact ⟨ht, hv * 3600, rfl, .hours hhour, rfl⟩
  rename_i hcolon
  have hs₁ := eq_cons_tail (not_not.mp hcolon)
  simp only [Option.bind_eq_some_iff] at h
  obtain ⟨⟨mv, s₂⟩, hm, h⟩ := h
  obtain ⟨mt, htail, hminute⟩ := tzsetNum_sound (by decide) hm
  rw [htail] at hs₁
  dsimp only at h
  split at h
  · simp only [Option.some.injEq, Prod.mk.injEq] at h
    obtain ⟨rfl, rfl⟩ := h
    refine ⟨ht ++ ascii ':' :: mt, hv * 3600 + mv * 60, ?_, .minutes hhour hminute, rfl⟩
    rw [hs₁]
    simp
  rename_i hcolon₂
  have hs₂ := eq_cons_tail (not_not.mp hcolon₂)
  simp only [Option.bind_eq_some_iff] at h
  obtain ⟨⟨sv, s₃⟩, hs, h⟩ := h
  obtain ⟨st, htail₂, hsecond⟩ := tzsetNum_sound (by decide) hs
  rw [htail₂] at hs₂
  simp only [Option.some.injEq, Prod.mk.injEq] at h
  obtain ⟨rfl, rfl⟩ := h
  refine ⟨ht ++ ascii ':' :: (mt ++ ascii ':' :: st), hv * 3600 + mv * 60 + sv, ?_,
    .seconds hhour hminute hsecond, rfl⟩
  rw [hs₁, hs₂]
  simp

theorem tzsetOffset_sound {s rest : Bytes} {n : Int} (h : tzsetOffset s = some (n, rest)) :
    ∃ text, s = text ++ rest ∧ OffsetText text n := by
  unfold tzsetOffset at h
  obtain ⟨first, hfirst, h⟩ := Option.bind_eq_some_iff.mp h
  have hs := eq_cons_tail hfirst
  by_cases hplus : first = ascii '+'
  · simp only [if_pos hplus] at h
    obtain ⟨text, value, htail, hclock, rfl⟩ := clock_sound false h
    exact ⟨ascii '+' :: text, by rw [hs, hplus, htail]; rfl, .plus hclock⟩
  · simp only [if_neg hplus] at h
    by_cases hminus : first = ascii '-'
    · simp only [if_pos hminus] at h
      obtain ⟨text, value, htail, hclock, rfl⟩ := clock_sound true h
      exact ⟨ascii '-' :: text, by rw [hs, hminus, htail]; rfl, .minus hclock⟩
    · simp only [if_neg hminus] at h
      obtain ⟨text, value, htail, hclock, rfl⟩ := clock_sound false h
      exact ⟨text, htail, .plain hclock⟩

theorem tzsetName_sound {s name rest : Bytes} (h : tzsetName s = some (name, rest)) :
    ∃ text, s = text ++ rest ∧ NameText text name := by
  unfold tzsetName at h
  obtain ⟨first, hfirst, h⟩ := Option.bind_eq_some_iff.mp h
  split at h
  · dsimp only at h
    split at h
    · cases h
    · rename_i hlen
      simp only [Option.some.injEq, Prod.mk.injEq] at h
      obtain ⟨rfl, rfl⟩ := h
      refine ⟨_, (List.prefix_iff_eq_append.mp (List.takeWhile_prefix _)).symm,
        .plain (not_lt.mp hlen) fun c hc => ?_⟩
      have hall := List.all_eq_true.mp List.all_takeWhile c hc
      simpa using hall
  · rename_i hquote
    obtain ⟨i, hi, h⟩ := Option.bind_eq_some_iff.mp h
    simp only [Option.some.injEq, Prod.mk.injEq] at h
    obtain ⟨rfl, rfl⟩ := h
    obtain ⟨hlt, hat, hbefore⟩ := List.findIdx?_eq_some_iff_getElem.mp hi
    rw [beq_iff_eq] at hat
    have hs := eq_cons_tail hfirst
    rw [not_not.mp hquote] at hs
    have hpos : 0 < i := by
      apply Nat.pos_of_ne_zero
      rintro rfl
      have hget : s.head? = some (ascii '>') := by
        rw [List.head?_eq_getElem?, List.getElem?_eq_getElem hlt, hat]
      rw [hs] at hget
      exact absurd (Option.some.inj hget) (by decide)
    refine ⟨ascii '<' :: ((s.take i).drop 1 ++ [ascii '>']), ?_, .quoted fun hmem => ?_⟩
    · have htake : s.take i = ascii '<' :: (s.take i).drop 1 := by
        obtain ⟨j, rfl⟩ := Nat.exists_eq_succ_of_ne_zero (Nat.ne_of_gt hpos)
        rw [hs]
        simp
      have hdrop : s.drop i = ascii '>' :: s.drop (i + 1) := by
        rw [List.drop_eq_getElem_cons hlt, hat]
      calc s = s.take i ++ s.drop i := (List.take_append_drop i s).symm
        _ = (ascii '<' :: (s.take i).drop 1) ++ (ascii '>' :: s.drop (i + 1)) := by
          rw [← htake, hdrop]
        _ = ascii '<' :: ((s.take i).drop 1 ++ [ascii '>']) ++ s.drop (i + 1) := by simp
    · obtain ⟨j, hj, hget⟩ := List.getElem_of_mem (List.mem_of_mem_drop hmem)
      have hji : j < i := by
        have := hj
        rw [List.length_take] at this
        omega
      rw [List.getElem_take] at hget
      exact hbefore j hji (by rw [hget]; rfl)

/-- The day of a rule; its time is not read yet. -/
theorem tzsetRuleDay_sound {s rest : Bytes} {r : Rule} (h : tzsetRuleDay s = some (r, rest)) :
    ∃ text, s = text ++ rest ∧ RuleDayText text r.kind r.day r.week r.mon := by
  unfold tzsetRuleDay at h
  obtain ⟨first, hfirst, h⟩ := Option.bind_eq_some_iff.mp h
  have hs := eq_cons_tail hfirst
  split at h
  · rename_i hjulian
    obtain ⟨⟨n, s₁⟩, hnum, h⟩ := Option.bind_eq_some_iff.mp h
    obtain ⟨text, htail, htext⟩ := tzsetNum_sound (by decide) hnum
    simp only [Option.some.injEq, Prod.mk.injEq] at h
    obtain ⟨rfl, rfl⟩ := h
    exact ⟨ascii 'J' :: text, by rw [hs, hjulian, htail]; rfl, .julian htext⟩
  split at h
  · rename_i hmonth
    obtain ⟨⟨mv, s₁⟩, hm, h⟩ := Option.bind_eq_some_iff.mp h
    obtain ⟨mt, htail, hmText⟩ := tzsetNum_sound (by decide) hm
    dsimp only at h
    split at h
    · cases h
    rename_i hdot₁
    have hs₁ := eq_cons_tail (not_not.mp hdot₁)
    obtain ⟨⟨wv, s₂⟩, hw, h⟩ := Option.bind_eq_some_iff.mp h
    obtain ⟨wt, htail₁, hwText⟩ := tzsetNum_sound (by decide) hw
    dsimp only at h
    split at h
    · cases h
    rename_i hdot₂
    have hs₂ := eq_cons_tail (not_not.mp hdot₂)
    obtain ⟨⟨dv, s₃⟩, hd, h⟩ := Option.bind_eq_some_iff.mp h
    obtain ⟨dt, htail₂, hdText⟩ := tzsetNum_sound (by decide) hd
    simp only [Option.some.injEq, Prod.mk.injEq] at h
    obtain ⟨rfl, rfl⟩ := h
    refine ⟨ascii 'M' :: (mt ++ ascii '.' :: (wt ++ ascii '.' :: dt)), ?_,
      .monthWeekDay hmText hwText hdText⟩
    rw [hs, hmonth, htail, hs₁, htail₁, hs₂, htail₂]
    simp
  · obtain ⟨⟨n, s₁⟩, hnum, h⟩ := Option.bind_eq_some_iff.mp h
    obtain ⟨text, htail, htext⟩ := tzsetNum_sound (by decide) hnum
    simp only [Option.some.injEq, Prod.mk.injEq] at h
    obtain ⟨rfl, rfl⟩ := h
    exact ⟨text, htail, .doy htext⟩

theorem tzsetRule_sound {s rest : Bytes} {r : Rule} (h : tzsetRule s = some (r, rest)) :
    ∃ text, s = text ++ rest ∧ RuleText text r := by
  unfold tzsetRule at h
  obtain ⟨⟨r₀, s₁⟩, hday, htime⟩ := Option.bind_eq_some_iff.mp h
  clear h
  obtain ⟨text, rfl, htext⟩ := tzsetRuleDay_sound hday
  rename' htime => h
  dsimp only at h
  split at h
  · simp only [Option.some.injEq, Prod.mk.injEq] at h
    obtain ⟨rfl, rfl⟩ := h
    exact ⟨text, rfl, .plain htext⟩
  · rename_i hslash
    have hs₁ := eq_cons_tail (not_not.mp hslash)
    obtain ⟨⟨time, s₂⟩, htime, h⟩ := Option.bind_eq_some_iff.mp h
    obtain ⟨otext, htail, hotext⟩ := tzsetOffset_sound htime
    simp only [Option.some.injEq, Prod.mk.injEq] at h
    obtain ⟨rfl, rfl⟩ := h
    refine ⟨text ++ ascii '/' :: otext, ?_, .timed htext hotext⟩
    rw [hs₁, htail]
    simp

/-! ## Ranges -/

theorem ClockText.range {t : Bytes} {n : Int} (h : ClockText t n) : 0 ≤ n ∧ n ≤ 608399 := by
  cases h with
  | hours hh =>
    have := hh.range
    omega
  | minutes hh hm =>
    have := hh.range
    have := hm.range
    omega
  | seconds hh hm hs =>
    have := hh.range
    have := hm.range
    have := hs.range
    omega

theorem OffsetText.range {t : Bytes} {n : Int} (h : OffsetText t n) :
    -608399 ≤ n ∧ n ≤ 608399 := by
  cases h with
  | plain h =>
    have := h.range
    omega
  | plus h =>
    have := h.range
    omega
  | minus h =>
    have := h.range
    omega

theorem RuleDayText.valid {t : Bytes} {kind : RuleKind} {day week mon time : Int}
    (h : RuleDayText t kind day week mon) (htime : -608399 ≤ time ∧ time ≤ 608399) :
    Rule.Valid ⟨kind, day, week, mon, time⟩ := by
  cases h with
  | julian hn =>
    exact ⟨fun _ => hn.range, RuleKind.noConfusion, RuleKind.noConfusion, htime⟩
  | doy hn =>
    exact ⟨RuleKind.noConfusion, fun _ => hn.range, RuleKind.noConfusion, htime⟩
  | monthWeekDay hm hw hd =>
    exact ⟨RuleKind.noConfusion, RuleKind.noConfusion,
      fun _ => ⟨hm.range, hw.range, hd.range⟩, htime⟩

theorem RuleText.valid {t : Bytes} {r : Rule} (h : RuleText t r) : r.Valid := by
  cases h with
  | plain hday => exact hday.valid (by decide)
  | timed hday ho => exact hday.valid ho.range

theorem RulesText.valid {t : Bytes} {startRule endRule : Rule}
    (h : RulesText t startRule endRule) : startRule.Valid ∧ endRule.Valid := by
  induction h with
  | given _ ha hb => exact ⟨ha.valid, hb.valid⟩
  | default _ ih => exact ih

theorem DstOffsetText.range {stdOffset : Int} {t : Bytes} {n : Int}
    (hstd : -608399 ≤ stdOffset ∧ stdOffset ≤ 608399) (h : DstOffsetText stdOffset t n) :
    -611999 ≤ n ∧ n ≤ 611999 := by
  cases h with
  | ahead => omega
  | given ho =>
    have := ho.range
    omega

theorem FooterText.valid {t : Bytes} {footer : Footer} (h : FooterText t footer) :
    footer.Valid := by
  cases h with
  | standard _ hb _ =>
    have := hb.range
    unfold Footer.Valid
    omega
  | seasonal _ hb _ hd he =>
    have hoff := hb.range
    exact ⟨by omega, hd.range (by omega), he.valid.1, he.valid.2⟩

/-! ## The footer -/

theorem tzsetDstOffset_sound {stdOffset n : Int} {s rest : Bytes}
    (hstd : -608399 ≤ stdOffset ∧ stdOffset ≤ 608399)
    (h : tzsetDstOffset stdOffset s = some (n, rest)) :
    ∃ text, s = text ++ rest ∧ DstOffsetText stdOffset text n := by
  unfold tzsetDstOffset at h
  split at h
  · simp only [Option.some.injEq, Prod.mk.injEq] at h
    obtain ⟨rfl, rfl⟩ := h
    rw [wrap_small (by omega)]
    exact ⟨[], rfl, .ahead⟩
  · obtain ⟨⟨o, s₁⟩, ho, h₁⟩ := Option.bind_eq_some_iff.mp h
    obtain ⟨text, htext, hoff⟩ := tzsetOffset_sound ho
    have hrange := hoff.range
    simp only [Option.some.injEq, Prod.mk.injEq] at h₁
    obtain ⟨rfl, rfl⟩ := h₁
    rw [wrap_small (by omega)]
    exact ⟨text, htext, .given hoff⟩

theorem tzsetRules_sound {s : Bytes} {startRule endRule : Rule}
    (h : tzsetRules s = some (startRule, endRule)) : RulesText s startRule endRule := by
  unfold tzsetRules at h
  split at h
  · cases h
  rename_i hsep
  obtain ⟨⟨r₁, s₁⟩, hstart, h₁⟩ := Option.bind_eq_some_iff.mp h
  obtain ⟨a, htail, ha⟩ := tzsetRule_sound hstart
  dsimp only at h₁
  split at h₁
  · cases h₁
  rename_i hcomma
  have hs₁ := eq_cons_tail (not_not.mp hcomma)
  obtain ⟨⟨r₂, s₂⟩, hend, h₂⟩ := Option.bind_eq_some_iff.mp h₁
  obtain ⟨b, htail₁, hb⟩ := tzsetRule_sound hend
  dsimp only at h₂
  split at h₂
  · cases h₂
  rename_i hempty
  have hs₂ : s₂ = [] := not_not.mp hempty
  simp only [Option.some.injEq, Prod.mk.injEq] at h₂
  obtain ⟨rfl, rfl⟩ := h₂
  obtain ⟨sep, hhead, hcase⟩ : ∃ sep, s.head? = some sep
      ∧ (sep = ascii ',' ∨ sep = ascii ';') := by
    rw [not_and_or, not_not, not_not] at hsep
    obtain hsep | hsep := hsep
    · exact ⟨_, hsep, Or.inl rfl⟩
    · exact ⟨_, hsep, Or.inr rfl⟩
  have hs : s = sep :: (a ++ ascii ',' :: b) := by
    rw [eq_cons_tail hhead, htail, hs₁, htail₁, hs₂, List.append_nil]
  rw [hs]
  exact .given hcase ha hb

/-- The footer reader reads by the grammar. -/
theorem tzsetFooter_sound {s : Bytes} {footer : Footer} (h : tzsetFooter s = some footer) :
    FooterText s footer := by
  unfold tzsetFooter at h
  obtain ⟨⟨stdName, s₁⟩, hname, h₁⟩ := Option.bind_eq_some_iff.mp h
  obtain ⟨a, hs, ha⟩ := tzsetName_sound hname
  obtain ⟨⟨off, s₂⟩, hoff, h₂⟩ := Option.bind_eq_some_iff.mp h₁
  obtain ⟨b, hs₁, hb⟩ := tzsetOffset_sound hoff
  have hrange := hb.range
  dsimp only at h₂
  rw [wrap_small (by omega)] at h₂
  split at h₂
  · rename_i hrest
    obtain rfl := Option.some.inj h₂
    rw [hs, hs₁]
    exact .standard ha hb hrest
  · obtain ⟨⟨dstName, s₃⟩, hdst, h₃⟩ := Option.bind_eq_some_iff.mp h₂
    obtain ⟨c, hs₂, hc⟩ := tzsetName_sound hdst
    obtain ⟨⟨dstOffset, s₄⟩, hdstOff, h₄⟩ := Option.bind_eq_some_iff.mp h₃
    obtain ⟨d, hs₃, hd⟩ := tzsetDstOffset_sound (by omega) hdstOff
    obtain ⟨⟨startRule, endRule⟩, hrules, h₅⟩ := Option.bind_eq_some_iff.mp h₄
    obtain rfl := Option.some.inj h₅
    dsimp only at hs₃
    have he : RulesText s₄ startRule endRule := by
      have hread := tzsetRules_sound hrules
      dsimp only at hread
      split at hread
      · rename_i hempty
        rw [hempty]
        exact .default hread
      · exact hread
    rw [hs, hs₁, hs₂, hs₃]
    exact .seasonal ha hb hc hd he

end RatifyProtocol.V2
