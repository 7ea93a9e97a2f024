import RatifyProtocol.V2.JsonCanonical
set_option autoImplicit false

/-!
# V2: wire values with application data

The schema-wide checks of `parse_wire` leave the member `params` of any object
alone: it is application data, not protocol bytes.  A `WireBody` may carry such
members, and nullable ones, at any depth; its canonical text passes the checks.
-/

namespace RatifyProtocol.V2

open Foundation

/-- A value a schema may carry, application data and nullable members included. -/
inductive WireBody : Nat → CJ → Prop
  | bool (levels : Nat) (b : Bool) : WireBody levels (.bool b)
  | int (levels : Nat) (n : Int) : -maxSafe ≤ n ∧ n ≤ maxSafe → WireBody levels (.int n)
  | str (levels : Nat) (s : String) : WireBody levels (.str s)
  | bytes (levels : Nat) (b : Bytes) : WireBody levels (.bytes b)
  | arr (levels : Nat) (xs : List CJ) :
      (∀ x ∈ xs, WireBody levels x) → WireBody (levels + 1) (.arr xs)
  | obj (levels : Nat) (fields : List (String × CJ)) :
      (fields.map Prod.fst).Nodup →
      (∀ f ∈ fields, f.1 ∈ wireByteFields → (∃ b, f.2 = .bytes b) ∨ f.2 = .null) →
      (∀ f ∈ fields, f.1 = "params" → Fits levels f.2 ∧ ∃ t, write f.2 = .ok t) →
      (∀ f ∈ fields, f.1 ≠ "params" → f.2 = .null → f.1 ∈ nullableMembers) →
      (∀ f ∈ fields, f.1 ≠ "params" → f.2 ≠ .null → WireBody levels f.2) →
      WireBody (levels + 1) (.obj fields)

theorem WireValue.ne_null {levels : Nat} {v : CJ} (h : WireValue levels v) : v ≠ .null := by
  cases h <;> simp

theorem WireValue.body {levels : Nat} {v : CJ} (h : WireValue levels v) : WireBody levels v := by
  induction h with
  | bool levels b => exact .bool levels b
  | int levels n hn => exact .int levels n hn
  | str levels s => exact .str levels s
  | bytes levels b => exact .bytes levels b
  | arr levels xs _ ih => exact .arr levels xs ih
  | obj levels fields hkeys hbytes hvalues ih =>
    refine .obj levels fields hkeys (fun f hf hname => .inl (hbytes f hf hname)) ?_ ?_ ?_
    · exact fun f hf _ => ⟨(hvalues f hf).fits, (hvalues f hf).exists_write⟩
    · exact fun f hf _ hnull => absurd hnull (hvalues f hf).ne_null
    · exact fun f hf _ _ => ih f hf

theorem WireBody.fits {levels : Nat} {v : CJ} (h : WireBody levels v) : Fits levels v := by
  induction h with
  | bool levels b => exact .bool levels b
  | int levels n _ => exact .int levels n
  | str levels s => exact .str levels s
  | bytes levels b => exact .bytes levels b
  | arr levels xs _ ih => exact .arr levels xs ih
  | obj levels fields hkeys _ hparams _ _ ih =>
    refine .obj levels fields hkeys fun f hf => ?_
    by_cases hname : f.1 = "params"
    · exact (hparams f hf hname).1
    by_cases hnull : f.2 = .null
    · rw [hnull]
      exact .null levels
    · exact ih f hf hname hnull

/-- Texts of every element, when each has one. -/
theorem exists_texts {α : Type} {text : α → V2Result (List Char)} {xs : List α}
    (h : ∀ x ∈ xs, ∃ t, text x = .ok t) :
    ∃ ts, List.Forall₂ (fun x t => text x = .ok t) xs ts := by
  induction xs with
  | nil => exact ⟨[], .nil⟩
  | cons x xs ih =>
    obtain ⟨t, ht⟩ := h x List.mem_cons_self
    obtain ⟨ts, hts⟩ := ih fun y hy => h y (List.mem_cons_of_mem _ hy)
    exact ⟨t :: ts, .cons ht hts⟩

theorem exists_write_arr {xs : List CJ} (h : ∀ x ∈ xs, ∃ t, write x = .ok t) :
    ∃ t, write (.arr xs) = .ok t := by
  obtain ⟨ts, hts⟩ := exists_texts h
  refine ⟨'[' :: commaSeparated ts ++ [']'], ?_⟩
  simp only [write, bind_eq_ok_iff, writeItems_eq_mapM, mapM_eq_ok_iff]
  exact ⟨ts, hts, rfl⟩

theorem exists_write_obj {fields : List (String × CJ)} (h : ∀ f ∈ fields, ∃ t, write f.2 = .ok t) :
    ∃ t, write (.obj fields) = .ok t := by
  have hsorted : ∀ f ∈ inKeyOrder fields, ∃ t, write f.2 = .ok t :=
    fun f hf => h f ((inKeyOrder_perm fields).mem_iff.mp hf)
  obtain ⟨ts, hts⟩ := exists_texts hsorted
  exact ⟨_, write_obj_eq_ok_iff.mpr ⟨ts, hts, rfl⟩⟩

/-- A wire body always has canonical text. -/
theorem WireBody.exists_write {levels : Nat} {v : CJ} (h : WireBody levels v) :
    ∃ t, write v = .ok t := by
  induction h with
  | bool levels b => cases b <;> exact ⟨_, rfl⟩
  | int levels n hn => exact ⟨encodeInt n, by simp only [write, hn, and_self, ↓reduceIte]⟩
  | str levels s => exact ⟨_, rfl⟩
  | bytes levels b => exact ⟨_, rfl⟩
  | arr levels xs _ ih => exact exists_write_arr ih
  | obj levels fields _ _ hparams _ _ ih =>
    refine exists_write_obj fun f hf => ?_
    by_cases hname : f.1 = "params"
    · exact (hparams f hf hname).2
    by_cases hnull : f.2 = .null
    · rw [hnull]
      exact ⟨_, rfl⟩
    · exact ih f hf hname hnull

theorem WireBody.exists_canonical {levels : Nat} {v : CJ} (h : WireBody levels v) :
    ∃ b, canonical v = .ok b := by
  obtain ⟨t, ht⟩ := h.exists_write
  exact ⟨utf8Chars t, by simp only [canonical, ht, ok_bind]⟩

/-! ## The schema-wide checks -/

/-- The members `topByte` adds to the byte fields, and only on the document itself,
hold bytes or `null`. -/
def TopBytes (topByte : List String) (d : Nat) (v : CJ) : Prop :=
  d = 0 → ∀ fields, v = .obj fields → ∀ f ∈ fields, f.1 ∈ topByte →
    (∃ b, f.2 = .bytes b) ∨ f.2 = .null

theorem topBytes_inner {topByte : List String} {d : Nat} {v : CJ} : TopBytes topByte (d + 1) v :=
  fun h => absurd h (Nat.succ_ne_zero d)

theorem checkByteMember_of_bytes {topByte topText : List String} {k : String} {v : CJ} {n : JNode}
    {d : Nat} (hbytes : (∃ b, v = .bytes b) ∨ v = .null) (hn : Denotes v n) :
    checkByteMember topByte topText d k n.v = .ok () := by
  rcases hbytes with ⟨b, rfl⟩ | rfl
  · cases hn
    simp [checkByteMember, JNode.v, checkCanonicalBase64_encodeChars]
  · cases hn
    rfl

theorem checkByteMember_of_unnamed {topByte topText : List String} {k : String} {d : Nat} {v : JV}
    (hname : k ∉ wireByteFields) (htop : d = 1 → k ∉ topByte) :
    checkByteMember topByte topText d k v = .ok () := by
  unfold checkByteMember
  split
  · by_cases hd : d = 1
    · simp [hname, htop hd]
    · simp [hname, hd]
  · rfl

theorem WireBody.checkByteNode_ok {topByte : List String} {levels : Nat} {v : CJ}
    (h : WireBody levels v) : ∀ {n}, Denotes v n → ∀ d, TopBytes topByte d v →
      checkByteNode topByte [] d n = .ok () := by
  induction h with
  | bool levels b => rintro n ⟨⟩ d _; rfl
  | int levels n _ => rintro n ⟨⟩ d _; rfl
  | str levels s => rintro n ⟨⟩ d _; rfl
  | bytes levels b => rintro n ⟨⟩ d _; rfl
  | arr levels xs hxs ih =>
    rintro n ⟨⟩ d -
    rename_i ns i j hns
    clear hxs
    simp only [checkByteNode, checkByteFields]
    induction hns with
    | nil => rfl
    | cons hx _ ihns =>
      rw [checkByteItems, ih _ List.mem_cons_self hx _ topBytes_inner, ok_bind]
      exact ihns fun x hmem => ih x (List.mem_cons_of_mem _ hmem)
  | obj levels fields _ hbytes _ _ _ ih =>
    rintro n ⟨⟩ d htop
    rename_i ms i j hfst hns
    have hmem : ∀ f ∈ inKeyOrder fields, f ∈ fields :=
      fun f hf => (inKeyOrder_perm fields).mem_iff.mp hf
    have htop' : ∀ f ∈ fields, d + 1 = 1 → f.1 ∈ topByte → (∃ b, f.2 = .bytes b) ∨ f.2 = .null :=
      fun f hf hd => htop (Nat.succ.inj hd) fields rfl f hf
    clear htop
    simp only [checkByteNode, checkByteFields]
    generalize inKeyOrder fields = sorted at hfst hns hmem
    induction ms generalizing sorted with
    | nil => rfl
    | cons m ms ihms =>
      obtain ⟨k, x⟩ := m
      cases sorted with
      | nil => simp at hfst
      | cons f fs =>
        simp only [List.map_cons, List.cons.injEq] at hfst
        obtain ⟨rfl, hfst⟩ := hfst
        obtain ⟨hx, hxs⟩ := List.forall₂_cons.mp hns
        have hf := hmem f List.mem_cons_self
        have hbyte : checkByteMember topByte [] (d + 1) f.1 x.v = .ok () := by
          by_cases hname : f.1 ∈ wireByteFields
          · exact checkByteMember_of_bytes (hbytes f hf hname) hx
          by_cases hnamed : d + 1 = 1 ∧ f.1 ∈ topByte
          · exact checkByteMember_of_bytes (htop' f hf hnamed.1 hnamed.2) hx
          · exact checkByteMember_of_unnamed hname fun hd hin => hnamed ⟨hd, hin⟩
        have hrest := ihms fs hfst hxs fun g hg => hmem g (List.mem_cons_of_mem _ hg)
        have hinner : f.1 ≠ "params" → checkByteNode topByte [] (d + 1) x = .ok () := by
          intro hparams
          by_cases hnull : f.2 = .null
          · change Denotes f.2 x at hx
            rw [hnull] at hx
            cases hx
            rfl
          · exact ih f hf hparams hnull hx _ topBytes_inner
        rw [checkByteMembers, hbyte, ok_bind]
        by_cases hparams : f.1 = "params"
        · simp only [hparams, ↓reduceIte, ok_bind]
          exact hrest
        · simp only [hparams, ↓reduceIte, hinner hparams, ok_bind]
          exact hrest

theorem WireBody.rejectNullNode_ok {levels : Nat} {v : CJ} (h : WireBody levels v) :
    ∀ {n}, Denotes v n → rejectNullNode n = .ok () := by
  induction h with
  | bool levels b => rintro n ⟨⟩; rfl
  | int levels n _ => rintro n ⟨⟩; rfl
  | str levels s => rintro n ⟨⟩; rfl
  | bytes levels b => rintro n ⟨⟩; rfl
  | arr levels xs hxs ih =>
    rintro n ⟨⟩
    rename_i ns i j hns
    clear hxs
    simp only [rejectNullNode, rejectUnexpectedNull]
    induction hns with
    | nil => rfl
    | cons hx _ ihns =>
      rw [rejectNullItems, ih _ List.mem_cons_self hx, ok_bind]
      exact ihns fun x hmem => ih x (List.mem_cons_of_mem _ hmem)
  | obj levels fields _ _ _ hnullable _ ih =>
    rintro n ⟨⟩
    rename_i ms i j hfst hns
    have hmem : ∀ f ∈ inKeyOrder fields, f ∈ fields :=
      fun f hf => (inKeyOrder_perm fields).mem_iff.mp hf
    simp only [rejectNullNode, rejectUnexpectedNull]
    generalize inKeyOrder fields = sorted at hfst hns hmem
    induction ms generalizing sorted with
    | nil => rfl
    | cons m ms ihms =>
      obtain ⟨k, x⟩ := m
      cases sorted with
      | nil => simp at hfst
      | cons f fs =>
        simp only [List.map_cons, List.cons.injEq] at hfst
        obtain ⟨rfl, hfst⟩ := hfst
        obtain ⟨hx, hxs⟩ := List.forall₂_cons.mp hns
        have hf := hmem f List.mem_cons_self
        have hrest := ihms fs hfst hxs fun g hg => hmem g (List.mem_cons_of_mem _ hg)
        rw [rejectNullMembers]
        by_cases hskip : (decide (f.1 = "params") || (x.isNull && nullableMembers.contains f.1)) = true
        · rw [if_pos hskip]
          exact hrest
        · have hparams : f.1 ≠ "params" := by
            intro hparams
            exact hskip (by simp [hparams])
          have hnull : f.2 ≠ .null := by
            intro hnull
            have hname := hnullable f hf hparams hnull
            change Denotes f.2 x at hx
            rw [hnull] at hx
            cases hx
            exact hskip (by simp [JNode.isNull, JNode.v, hname])
          rw [if_neg hskip, ih f hf hparams hnull hx]
          exact hrest

/-- Canonical text of a wire body passes every schema-wide check. -/
theorem WireBody.parseWire_ok {topByte : List String} {v : CJ} {b : Bytes}
    (hv : WireBody maxJsonNestingDepth v) (htop : TopBytes topByte 0 v)
    (h : canonical v = .ok b) : ∃ n, parseWire b topByte [] = .ok n ∧ Denotes v n := by
  obtain ⟨n, hn, hd⟩ := parseJson_canonical hv.fits h
  refine ⟨n, ?_, hd⟩
  simp only [parseWire, hn, ok_bind, hv.checkByteNode_ok hd 0 htop, hv.rejectNullNode_ok hd]

end RatifyProtocol.V2
