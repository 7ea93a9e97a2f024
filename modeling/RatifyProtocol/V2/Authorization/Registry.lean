import Mathlib.Data.List.Perm.Subperm
import RatifyProtocol.V2.Crypto
import RatifyProtocol.V2.Delegation.Local
import RatifyProtocol.V2.Evaluators
set_option autoImplicit false

/-!
# Authorization: registered evaluators

The registry of `v2/evaluator.rs` and the snapshot that a preflight takes of it.  A
registry is frozen once it is built; every entry is named by the type it is kept under.
-/

namespace RatifyProtocol.V2

open Foundation

def maxProfileIdBytesV2 : Nat := 128

/-- Ten seconds. -/
def maxConstraintEvaluatorTimeoutV2 : Nat := 10000000000

def profileDigestLabel : Bytes := utf8 "ratify-protocol-constraint-profile-v2\x00"

/-- A `Duration`, with the text that displays it. -/
structure EvaluatorTimeout where
  nanos : Nat
  text : String
  deriving DecidableEq, Repr

/-- The canonical object whose digest identifies a profile. -/
structure ConstraintProfileDescriptorV2 where
  profile : String
  kind : String
  deriving DecidableEq, Repr

structure ConstraintEvaluatorRegistrationV2 where
  descriptor : ConstraintProfileDescriptorV2
  evaluate : RegisteredEvaluator

/-- A `RegisteredEvaluator` with its reference. -/
structure RegistryEntry where
  reference : ConstraintEvaluatorRefV2
  evaluate : RegisteredEvaluator

/-- `split_once("/v")`. -/
def splitOnceVersion : List Char → Option (List Char × List Char)
  | [] => none
  | c :: rest =>
    if c = '/' ∧ rest.head? = some 'v' then some ([], rest.tail)
    else (splitOnceVersion rest).map fun parts => (c :: parts.1, parts.2)

/-- `<name>/v<n>`. -/
def validProfileIdV2 (id : String) : Bool :=
  if (utf8 id).length > maxProfileIdBytesV2 then false
  else
    match splitOnceVersion id.toList with
    | none => false
    | some (name, version) =>
      if name.isEmpty || version.isEmpty || version.head? == some '0' || version.contains '/' then
        false
      else version.all Char.isDigit && (name.splitOn '.').all labelOk

variable (P : Primitives)

def constraintProfileDigestV2 (d : ConstraintProfileDescriptorV2) : V2Result String :=
  if !validExtensionTypeV2 d.kind then
    err .configurationInvalid
      s!"v2 constraint profile type {debugQuote d.kind} is not a registrable extension type"
  else if !validProfileIdV2 d.profile then
    err .configurationInvalid s!"v2 constraint profile identifier {debugQuote d.profile} is invalid"
  else do
    let body ← canonical (.obj [("profile", .str d.profile), ("type", .str d.kind)])
    .ok ("sha384:" ++ hexEncode (sha384 P [profileDigestLabel, body]))

/-- The loop over the registrations, with the entries before them. -/
def registerAll : OrderedMap String RegistryEntry → List ConstraintEvaluatorRegistrationV2 →
    V2Result (OrderedMap String RegistryEntry)
  | entries, [] => .ok entries
  | entries, r :: registrations => do
    let digest ← classify .configurationInvalid (constraintProfileDigestV2 P r.descriptor)
    let kind := r.descriptor.kind
    if entries.contains kind then
      err .configurationInvalid
        s!"v2 constraint type {debugQuote kind} is registered more than once"
    else
      registerAll (entries.insert kind
        { reference := { kind, profileDigest := digest }, evaluate := r.evaluate }) registrations

/-- Every entry has a registrable type, is kept under it and names its profile. -/
def Registered (entries : OrderedMap String RegistryEntry) : Prop :=
  ∀ kind e, entries.get? kind = some e → e.reference.kind = kind
    ∧ validExtensionTypeV2 kind = true ∧ validPrefixedDigest e.reference.profileDigest = true

variable {P}

theorem constraintProfileDigestV2_valid {d : ConstraintProfileDescriptorV2} {digest : String}
    (h : constraintProfileDigestV2 P d = .ok digest) :
    validExtensionTypeV2 d.kind = true ∧ validPrefixedDigest digest = true := by
  rw [constraintProfileDigestV2] at h
  split at h
  · exact absurd h err_ne_ok
  rename_i hkind
  split at h
  · exact absurd h err_ne_ok
  obtain ⟨body, -, h⟩ := bind_eq_ok_iff.mp h
  obtain rfl := Except.ok.inj h
  exact ⟨by simpa using hkind, validPrefixedDigest_hexEncode (P.length_sha384 _)⟩

/-- Every registration adds one entry of its own type. -/
theorem registered_of_registerAll {registrations : List ConstraintEvaluatorRegistrationV2} :
    ∀ {entries final : OrderedMap String RegistryEntry}, Registered entries →
      registerAll P entries registrations = .ok final →
      Registered final ∧ final.size ≤ entries.size + registrations.length := by
  induction registrations with
  | nil =>
    intro entries final hentries h
    obtain rfl := Except.ok.inj h
    exact ⟨hentries, le_rfl⟩
  | cons r registrations ih =>
    intro entries final hentries h
    rw [registerAll] at h
    obtain ⟨digest, hdigest, h⟩ := bind_eq_ok_iff.mp h
    obtain ⟨hkind, hvalid⟩ := constraintProfileDigestV2_valid (classify_eq_ok_iff.mp hdigest)
    dsimp only at h
    split at h
    · exact absurd h err_ne_ok
    have hinsert : Registered (entries.insert r.descriptor.kind
        { reference := { kind := r.descriptor.kind, profileDigest := digest }
          evaluate := r.evaluate }) := by
      intro kind e he
      rw [OrderedMap.get?_insert] at he
      split at he
      · rename_i hsame
        obtain rfl := Option.some.inj he
        subst hsame
        exact ⟨rfl, hkind, hvalid⟩
      · exact hentries kind e he
    obtain ⟨hfinal, hsize⟩ := ih hinsert h
    refine ⟨hfinal, hsize.trans ?_⟩
    have hgrown := OrderedMap.size_insert_le entries r.descriptor.kind
      ⟨⟨r.descriptor.kind, digest⟩, r.evaluate⟩
    rw [List.length_cons]
    omega

/-- `ConstraintEvaluatorRegistryV2`: what its constructor has checked stays with it. -/
structure ConstraintEvaluatorRegistryV2 where
  timeout : EvaluatorTimeout
  entries : OrderedMap String RegistryEntry
  bounded : 0 < timeout.nanos ∧ timeout.nanos ≤ maxConstraintEvaluatorTimeoutV2
  registered : Registered entries
  size : entries.size ≤ maxConstraintEvaluatorsV2

namespace ConstraintEvaluatorRegistryV2

variable (P)

/-- `ConstraintEvaluatorRegistryV2::new`. -/
def new (timeout : EvaluatorTimeout) (registrations : List ConstraintEvaluatorRegistrationV2) :
    V2Result ConstraintEvaluatorRegistryV2 :=
  if htimeout : timeout.nanos = 0 ∨ timeout.nanos > maxConstraintEvaluatorTimeoutV2 then
    err .configurationInvalid "v2 constraint evaluator timeout must be in (0, 10s]"
  else if hcount : registrations.length > maxConstraintEvaluatorsV2 then
    err .configurationInvalid
      s!"v2 constraint evaluator registry holds at most {maxConstraintEvaluatorsV2} profiles"
  else
    match hall : registerAll P .empty registrations with
    | .error e => .error e
    | .ok entries =>
      have hempty : Registered .empty := by simp [Registered]
      have hregistered := registered_of_registerAll hempty hall
      .ok { timeout, entries
            bounded := by omega
            registered := hregistered.1
            size := by
              have hsize : entries.size ≤ 0 + registrations.length := hregistered.2
              omega }

/-- The registered references, sorted by type. -/
def refs (registry : ConstraintEvaluatorRegistryV2) : List ConstraintEvaluatorRefV2 :=
  registry.entries.entries.map fun e => e.2.reference

end ConstraintEvaluatorRegistryV2

/-! ## The snapshot of a chain -/

/-- The entries of a registry that some constraint asks for. -/
def usedEntries (entries : OrderedMap String RegistryEntry) (kinds : List String) :
    OrderedMap String RegistryEntry :=
  kinds.foldl (fun used kind =>
    match entries.get? kind with
    | some e => used.insert kind e
    | none => used) .empty

/-- The types of the constraints of a bundle in chain order. -/
def ProofBundleV2.kinds (b : ProofBundleV2) : List String :=
  b.delegations.flatMap fun c => c.constraints.map ConstraintV2.kind

/-- `snapshot_constraint_evaluators_v2`: the sealed evaluators and their references. -/
def snapshotConstraintEvaluatorsV2 (registry : Option ConstraintEvaluatorRegistryV2)
    (b : ProofBundleV2) : SealedEvaluators × List ConstraintEvaluatorRefV2 :=
  match registry with
  | none => ({ entries := .empty, timeout := "0ns" }, [])
  | some registry =>
    let used := usedEntries registry.entries b.kinds
    if used.entries.isEmpty then ({ entries := .empty, timeout := "0ns" }, [])
    else
      ({ entries := used.mapValues RegistryEntry.evaluate, timeout := registry.timeout.text },
        used.entries.map fun e => e.2.reference)

/-- The snapshot keeps the entries of the types that occur. -/
theorem get?_usedEntries (entries : OrderedMap String RegistryEntry) (kinds : List String)
    (kind : String) :
    (usedEntries entries kinds).get? kind = if kind ∈ kinds then entries.get? kind else none := by
  have hfold : ∀ (kinds : List String) (used : OrderedMap String RegistryEntry),
      (kinds.foldl (fun used kind =>
        match entries.get? kind with
        | some e => used.insert kind e
        | none => used) used).get? kind
        = if kind ∈ kinds ∧ (entries.get? kind).isSome then entries.get? kind
          else used.get? kind := by
    intro kinds
    induction kinds with
    | nil => simp
    | cons k kinds ih =>
      intro used
      rw [List.foldl_cons, ih]
      cases hentry : entries.get? k with
      | none =>
        by_cases hk : kind = k
        · subst hk
          simp [hentry]
        · simp [hk]
      | some e =>
        by_cases hk : kind = k
        · subst hk
          simp [hentry]
        · simp [hk, OrderedMap.get?_insert_of_ne]
  rw [usedEntries, hfold]
  cases hentry : entries.get? kind with
  | none => simp
  | some e => simp

variable {registry : Option ConstraintEvaluatorRegistryV2} {b : ProofBundleV2}

/-- The references of a snapshot are valid: sorted by type, no type twice, and not too many. -/
theorem snapshotConstraintEvaluatorsV2_valid :
    validConstraintEvaluatorRefsV2 (snapshotConstraintEvaluatorsV2 registry b).2 = true := by
  cases registry with
  | none => rfl
  | some registry =>
    rw [snapshotConstraintEvaluatorsV2]
    set used := usedEntries registry.entries b.kinds with hused
    split
    · rfl
    have hentry : ∀ e ∈ used.entries, e ∈ registry.entries.entries := by
      intro e he
      have hget : used.get? e.1 = some e.2 := OrderedMap.mem_entries_iff.mp he
      rw [hused, get?_usedEntries] at hget
      split at hget
      · exact OrderedMap.mem_entries_iff.mpr hget
      · cases hget
    have hnamed : ∀ e ∈ used.entries, e.2.reference.kind = e.1
        ∧ validExtensionTypeV2 e.1 = true
        ∧ validPrefixedDigest e.2.reference.profileDigest = true := fun e he =>
      registry.registered e.1 e.2 (OrderedMap.mem_entries_iff.mp (hentry e he))
    have hlength : used.entries.length ≤ maxConstraintEvaluatorsV2 := by
      have hsub := (OrderedMap.nodup_entries used).subperm fun e he => hentry e he
      exact hsub.length_le.trans registry.size
    have hascending : ascendingBy (fun a b : ConstraintEvaluatorRefV2 => decide (a.kind < b.kind))
        (used.entries.map fun e => e.2.reference) = true := by
      refine ascendingBy_of_pairwise (List.pairwise_map.mpr ?_)
      refine used.ascending.imp_of_mem fun {d e} hd he hlt => ?_
      rw [(hnamed d hd).1, (hnamed e he).1]
      simpa using hlt
    rw [validConstraintEvaluatorRefsV2, hascending, List.length_map, decide_eq_true hlength]
    simp only [Bool.true_and, Bool.and_true, List.all_map, List.all_eq_true, Function.comp_apply,
      Bool.and_eq_true]
    intro e he
    rw [(hnamed e he).1]
    exact (hnamed e he).2

/-- Only a chain has references. -/
theorem snapshotConstraintEvaluatorsV2_delegated
    (h : (snapshotConstraintEvaluatorsV2 registry b).2 ≠ []) : b.delegations ≠ [] := by
  intro hnone
  apply h
  have hkinds : b.kinds = [] := by
    rw [ProofBundleV2.kinds, hnone]
    rfl
  cases registry with
  | none => rfl
  | some registry =>
    rw [snapshotConstraintEvaluatorsV2, hkinds]
    rfl

end RatifyProtocol.V2
