import FinanceIntelligence.CommandEnvelope
import FinanceIntelligence.JsonKeys

/-!
# The identity of a calculation

`compute_request_fingerprint` and `compute_canonical_idempotency_hash` (calculation_service.py)
hash the canonical JSON text of their arguments. What is hashed is the **preimage**: two requests,
or two executions, get one hash exactly if they have one preimage (as long as SHA-256 has no
collision).

* `Request.preimage_eq_iff` — requests with one preimage have the **same arguments**;
* `Execution.preimage_eq_iff` — executions with one preimage are **the same**, and their inputs
  assign the same facts to the same roles, in whatever order;
* `preimage_canonical` — both together.
-/

namespace FinanceIntelligence

namespace CalculationIdentity

variable {D : DoubleText}

/-- `str` of a UUID. -/
def uuidJson (id : Uuid) : PyJson D := .str (uuidText id).toList

/-- A text, or `null`. -/
def optionalJson : Option (List Char) → PyJson D
  | some text => .str text
  | none => .null

/-- `str` of a UUID, or `null`. -/
def optionalUuidJson (id : Option Uuid) : PyJson D :=
  optionalJson (id.map fun id => (uuidText id).toList)

/-- `json.dumps(payload, sort_keys=True).encode("utf-8")`. -/
def preimage (payload : PyJson D) : List ℕ := utf8Bytes (dumps D payload.sortKeys)

/-! ## Values -/

@[simp] theorem uuidJson_inj {id id' : Uuid} :
    (uuidJson id : PyJson D) = uuidJson id' ↔ id = id' :=
  ⟨fun h => uuidText_injective (Json.str.inj h), congrArg _⟩

@[simp] theorem optionalJson_inj {text text' : Option (List Char)} :
    (optionalJson text : PyJson D) = optionalJson text' ↔ text = text' := by
  cases text <;> cases text' <;> simp [optionalJson]

@[simp] theorem optionalUuidJson_inj {id id' : Option Uuid} :
    (optionalUuidJson id : PyJson D) = optionalUuidJson id' ↔ id = id' := by
  have hinj : Function.Injective fun id : Uuid => (uuidText id).toList :=
    fun _ _ h => uuidText_injective h
  rw [optionalUuidJson, optionalUuidJson, optionalJson_inj, (Option.map_injective hinj).eq_iff]

@[simp] theorem sortKeys_uuidJson (id : Uuid) : (uuidJson id : PyJson D).sortKeys = uuidJson id :=
  rfl

@[simp] theorem sortKeys_optionalJson (text : Option (List Char)) :
    (optionalJson text : PyJson D).sortKeys = optionalJson text := by
  cases text <;> rfl

@[simp] theorem sortKeys_optionalUuidJson (id : Option Uuid) :
    (optionalUuidJson id : PyJson D).sortKeys = optionalUuidJson id := sortKeys_optionalJson _

@[simp] theorem sortKeys_str (text : List Char) :
    (Json.str text : PyJson D).sortKeys = .str text := rfl

theorem wf_uuidJson (id : Uuid) : (uuidJson id : PyJson D).Wf := trivial

theorem wf_optionalJson (text : Option (List Char)) : (optionalJson text : PyJson D).Wf := by
  cases text <;> trivial

theorem wf_optionalUuidJson (id : Option Uuid) : (optionalUuidJson id : PyJson D).Wf :=
  wf_optionalJson _

/-- The values of the fields of an object. -/
def valuesOf (l : List (List Char × PyJson D)) : List (PyJson D) := l.map fun x => x.2.sortKeys

/-- Objects with the same keys in the same order are told by their values. -/
theorem valuesOf_eq {l l' : List (List Char × PyJson D)} {keys : List (List Char)}
    (hl : l.map Prod.fst = keys) (hl' : l'.map Prod.fst = keys) (hnodup : keys.Nodup)
    (h : (Json.obj l : PyJson D).sortKeys = (Json.obj l').sortKeys) : valuesOf l = valuesOf l' := by
  subst hl
  have hfields := congrArg (List.map Prod.snd) (sortKeys_obj_injective hl'.symm hnodup h)
  rwa [Json.sortKeysFields_values, Json.sortKeysFields_values] at hfields

theorem sortKeys_of_preimage_eq {v w : PyJson D} (hv : v.Wf) (hw : w.Wf)
    (h : preimage v = preimage w) : v.sortKeys = w.sortKeys :=
  dumps_injective hv.sortKeys hw.sortKeys (utf8Bytes_injective h)

/-! ## Requests -/

/-- The arguments of `compute_request_fingerprint`. -/
structure Request where
  organizationId : Uuid
  formulaCode : List Char
  formulaVersion : List Char
  institutionId : Uuid
  reportingPeriodId : Uuid
  comparisonPeriodId : Option Uuid
  comparisonPolicy : List Char
deriving DecidableEq

namespace Request

variable (r r' : Request)

/-- The fields of `canonical_payload`. -/
def fields : List (List Char × PyJson D) :=
  [("organization_id".toList, uuidJson r.organizationId),
    ("formula_code".toList, .str r.formulaCode),
    ("formula_version".toList, .str r.formulaVersion),
    ("institution_id".toList, uuidJson r.institutionId),
    ("reporting_period_id".toList, uuidJson r.reportingPeriodId),
    ("comparison_period_id".toList, optionalUuidJson r.comparisonPeriodId),
    ("comparison_policy".toList, .str r.comparisonPolicy),
    ("contract_schema_version".toList, .str "1.0.0".toList)]

/-- What `compute_request_fingerprint` hashes. -/
def preimage (D : DoubleText) : List ℕ :=
  CalculationIdentity.preimage (.obj r.fields : PyJson D)

/-- The keys of `canonical_payload`. -/
def keys : List (List Char) :=
  ["organization_id".toList, "formula_code".toList, "formula_version".toList,
    "institution_id".toList, "reporting_period_id".toList, "comparison_period_id".toList,
    "comparison_policy".toList, "contract_schema_version".toList]

theorem nodup_keys : keys.Nodup := by decide

theorem map_fst_fields : (r.fields : List (List Char × PyJson D)).map Prod.fst = keys := rfl

theorem wf_fields : (Json.obj r.fields : PyJson D).Wf :=
  ⟨nodup_keys, wf_uuidJson _, trivial, trivial, wf_uuidJson _, wf_uuidJson _,
    wf_optionalUuidJson _, trivial, trivial, trivial⟩

theorem valuesOf_fields : valuesOf (r.fields : List (List Char × PyJson D)) =
    [uuidJson r.organizationId, .str r.formulaCode, .str r.formulaVersion,
      uuidJson r.institutionId, uuidJson r.reportingPeriodId,
      (optionalUuidJson r.comparisonPeriodId).sortKeys, .str r.comparisonPolicy,
      .str "1.0.0".toList] := rfl

/-- **Requests with one preimage** have the same arguments. -/
theorem preimage_eq_iff : r.preimage D = r'.preimage D ↔ r = r' := by
  constructor
  · intro h
    have hvalues := valuesOf_eq r.map_fst_fields r'.map_fst_fields nodup_keys
      (sortKeys_of_preimage_eq r.wf_fields r'.wf_fields h)
    rw [valuesOf_fields, valuesOf_fields] at hvalues
    simp only [sortKeys_optionalUuidJson, List.cons.injEq, and_true, uuidJson_inj,
      optionalUuidJson_inj, Json.str.injEq] at hvalues
    obtain ⟨horg, hcode, hversion, hinstitution, hperiod, hcomparison, hpolicy⟩ := hvalues
    cases r
    cases r'
    simp only at horg hcode hversion hinstitution hperiod hcomparison hpolicy
    rw [horg, hcode, hversion, hinstitution, hperiod, hcomparison, hpolicy]
  · rintro rfl
    rfl

end Request

/-! ## Executions -/

/-- An input fact, as `inputs_by_role` has it. -/
structure InputFact where
  id : Uuid
  candidateId : Option Uuid
  /-- `str(normalized_value)` -/
  normalizedValue : List Char
  currency : Option (List Char)
  unit : Option (List Char)
  scale : Option (List Char)
  reportingBasis : Option (List Char)

/-- What an execution depends on of a fact. -/
structure FactIdentity where
  factId : Uuid
  revisionId : Uuid
  normalizedValue : List Char
  currency : Option (List Char)
  unit : Option (List Char)
  scale : Option (List Char)
  reportingBasis : Option (List Char)
deriving DecidableEq

/-- The revision of a fact is its candidate, or else the fact itself. -/
def InputFact.identity (f : InputFact) : FactIdentity where
  factId := f.id
  revisionId := f.candidateId.getD f.id
  normalizedValue := f.normalizedValue
  currency := f.currency
  unit := f.unit
  scale := f.scale
  reportingBasis := f.reportingBasis

/-- `inputs_by_role`, in the order in which the roles were added. -/
structure RoleInputs where
  /-- the roles with their facts -/
  entries : List (List Char × InputFact)
  /-- no role stands twice -/
  keys : Keyed.Keys entries

namespace FactIdentity

variable (f f' : FactIdentity)

/-- The fields of an entry of `role_snapshots`. -/
def fields (role : List Char) : List (List Char × PyJson D) :=
  [("role".toList, .str role),
    ("fact_id".toList, uuidJson f.factId),
    ("revision_id".toList, uuidJson f.revisionId),
    ("normalized_value".toList, .str f.normalizedValue),
    ("currency".toList, optionalJson f.currency),
    ("unit".toList, optionalJson f.unit),
    ("scale".toList, optionalJson f.scale),
    ("reporting_basis".toList, optionalJson f.reportingBasis)]

/-- The keys of an entry of `role_snapshots`. -/
def keys : List (List Char) :=
  ["role".toList, "fact_id".toList, "revision_id".toList, "normalized_value".toList,
    "currency".toList, "unit".toList, "scale".toList, "reporting_basis".toList]

theorem nodup_keys : keys.Nodup := by decide

theorem map_fst_fields (role : List Char) :
    (f.fields role : List (List Char × PyJson D)).map Prod.fst = keys := rfl

theorem wf_fields (role : List Char) : (Json.obj (f.fields role) : PyJson D).Wf :=
  ⟨nodup_keys, trivial, wf_uuidJson _, wf_uuidJson _, trivial, wf_optionalJson _,
    wf_optionalJson _, wf_optionalJson _, wf_optionalJson _, trivial⟩

theorem valuesOf_fields (role : List Char) :
    valuesOf (f.fields role : List (List Char × PyJson D)) =
      [.str role, uuidJson f.factId, uuidJson f.revisionId, .str f.normalizedValue,
        (optionalJson f.currency).sortKeys, (optionalJson f.unit).sortKeys,
        (optionalJson f.scale).sortKeys, (optionalJson f.reportingBasis).sortKeys] := rfl

/-- An entry tells the role and the fact. -/
theorem snapshot_injective {role role' : List Char}
    (h : (Json.obj (f.fields role) : PyJson D).sortKeys = (Json.obj (f'.fields role')).sortKeys) :
    role = role' ∧ f = f' := by
  have hvalues := valuesOf_eq (f.map_fst_fields role) (f'.map_fst_fields role') nodup_keys h
  rw [valuesOf_fields, valuesOf_fields] at hvalues
  simp only [sortKeys_optionalJson, List.cons.injEq, and_true, uuidJson_inj, optionalJson_inj,
    Json.str.injEq] at hvalues
  obtain ⟨hrole, hid, hrevision, hvalue, hcurrency, hunit, hscale, hbasis⟩ := hvalues
  cases f
  cases f'
  simp only at hid hrevision hvalue hcurrency hunit hscale hbasis
  exact ⟨hrole, by rw [hid, hrevision, hvalue, hcurrency, hunit, hscale, hbasis]⟩

end FactIdentity

/-- The arguments of `compute_canonical_idempotency_hash`. -/
structure Execution where
  organizationId : Uuid
  formulaCode : List Char
  formulaVersion : List Char
  formulaSpecChecksum : List Char
  implementationChecksum : List Char
  inputsByRole : RoleInputs
  reportingPeriodId : Uuid
  comparisonPeriodId : Option Uuid
  comparisonPolicy : List Char
  annualizationPolicyVersion : List Char := "1.0.0".toList
  roundingPolicyVersion : List Char := "1.0.0".toList
  reconciliationPolicyVersion : List Char := "1.0.0".toList
  idempotencySchemaVersion : List Char := "1.0.0".toList

namespace Execution

variable (e e' : Execution)

/-- The facts of the roles in the order of the roles. -/
def sortedInputs : List (List Char × FactIdentity) :=
  Keyed.canonical InputFact.identity e.inputsByRole.entries

/-- `role_snapshots`, of facts in the order in which they are written. -/
def roleSnapshots (inputs : List (List Char × FactIdentity)) : List (PyJson D) :=
  inputs.map fun (role, f) => .obj (f.fields role)

/-- The fields of `canonical_payload` around the snapshots of the facts. -/
def fieldsWith (inputs : List (List Char × FactIdentity)) : List (List Char × PyJson D) :=
  [("organization_id".toList, uuidJson e.organizationId),
    ("formula_code".toList, .str e.formulaCode),
    ("formula_version".toList, .str e.formulaVersion),
    ("formula_spec_checksum".toList, .str e.formulaSpecChecksum),
    ("implementation_checksum".toList, .str e.implementationChecksum),
    ("reporting_period_id".toList, uuidJson e.reportingPeriodId),
    ("comparison_period_id".toList, optionalUuidJson e.comparisonPeriodId),
    ("comparison_policy".toList, .str e.comparisonPolicy),
    ("annualization_policy_version".toList, .str e.annualizationPolicyVersion),
    ("rounding_policy_version".toList, .str e.roundingPolicyVersion),
    ("reconciliation_policy_version".toList, .str e.reconciliationPolicyVersion),
    ("idempotency_schema_version".toList, .str e.idempotencySchemaVersion),
    ("inputs".toList, .arr (roleSnapshots inputs))]

/-- The fields of `canonical_payload`. -/
def fields : List (List Char × PyJson D) := e.fieldsWith e.sortedInputs

/-- What `compute_canonical_idempotency_hash` hashes. -/
def preimage (D : DoubleText) : List ℕ :=
  CalculationIdentity.preimage (.obj e.fields : PyJson D)

/-- **The executions are the same**, with the same facts for the same roles. -/
structure Same : Prop where
  organizationId : e.organizationId = e'.organizationId
  formulaCode : e.formulaCode = e'.formulaCode
  formulaVersion : e.formulaVersion = e'.formulaVersion
  formulaSpecChecksum : e.formulaSpecChecksum = e'.formulaSpecChecksum
  implementationChecksum : e.implementationChecksum = e'.implementationChecksum
  reportingPeriodId : e.reportingPeriodId = e'.reportingPeriodId
  comparisonPeriodId : e.comparisonPeriodId = e'.comparisonPeriodId
  comparisonPolicy : e.comparisonPolicy = e'.comparisonPolicy
  annualizationPolicyVersion : e.annualizationPolicyVersion = e'.annualizationPolicyVersion
  roundingPolicyVersion : e.roundingPolicyVersion = e'.roundingPolicyVersion
  reconciliationPolicyVersion : e.reconciliationPolicyVersion = e'.reconciliationPolicyVersion
  idempotencySchemaVersion : e.idempotencySchemaVersion = e'.idempotencySchemaVersion
  /-- what is assigned to every role -/
  inputs : ∀ role, (Keyed.find e.inputsByRole.entries role).map InputFact.identity =
    (Keyed.find e'.inputsByRole.entries role).map InputFact.identity

variable {e e'}

theorem sortedInputs_eq_iff : e.sortedInputs = e'.sortedInputs ↔
    ∀ role, (Keyed.find e.inputsByRole.entries role).map InputFact.identity =
      (Keyed.find e'.inputsByRole.entries role).map InputFact.identity :=
  Keyed.canonical_eq_iff e.inputsByRole.keys e'.inputsByRole.keys

variable {inputs inputs' : List (List Char × FactIdentity)}

/-- The snapshots tell the facts of the roles. -/
theorem roleSnapshots_injective
    (h : Json.sortKeysList (roleSnapshots inputs : List (PyJson D)) =
      Json.sortKeysList (roleSnapshots inputs')) : inputs = inputs' := by
  rw [Json.sortKeysList_eq_map, Json.sortKeysList_eq_map, roleSnapshots, roleSnapshots,
    List.map_map, List.map_map] at h
  refine List.map_injective_iff.mpr ?_ h
  rintro ⟨role, f⟩ ⟨role', f'⟩ heq
  obtain ⟨rfl, rfl⟩ := FactIdentity.snapshot_injective f f' heq
  rfl

variable (e e' inputs)

theorem wf_roleSnapshots : Json.WfList (roleSnapshots inputs : List (PyJson D)) := by
  rw [roleSnapshots]
  induction inputs with
  | nil => trivial
  | cons x l ih => exact ⟨x.2.wf_fields x.1, ih⟩

/-- The keys of `canonical_payload`. -/
def keys : List (List Char) :=
  ["organization_id".toList, "formula_code".toList, "formula_version".toList,
    "formula_spec_checksum".toList, "implementation_checksum".toList,
    "reporting_period_id".toList, "comparison_period_id".toList, "comparison_policy".toList,
    "annualization_policy_version".toList, "rounding_policy_version".toList,
    "reconciliation_policy_version".toList, "idempotency_schema_version".toList, "inputs".toList]

theorem nodup_keys : keys.Nodup := by decide

theorem map_fst_fieldsWith :
    (e.fieldsWith inputs : List (List Char × PyJson D)).map Prod.fst = keys := rfl

theorem wf_fieldsWith : (Json.obj (e.fieldsWith inputs) : PyJson D).Wf :=
  ⟨nodup_keys, wf_uuidJson _, trivial, trivial, trivial, trivial, wf_uuidJson _,
    wf_optionalUuidJson _, trivial, trivial, trivial, trivial, trivial, wf_roleSnapshots inputs,
    trivial⟩

theorem valuesOf_fieldsWith : valuesOf (e.fieldsWith inputs : List (List Char × PyJson D)) =
    [uuidJson e.organizationId, .str e.formulaCode, .str e.formulaVersion,
      .str e.formulaSpecChecksum, .str e.implementationChecksum, uuidJson e.reportingPeriodId,
      (optionalUuidJson e.comparisonPeriodId).sortKeys, .str e.comparisonPolicy,
      .str e.annualizationPolicyVersion, .str e.roundingPolicyVersion,
      .str e.reconciliationPolicyVersion, .str e.idempotencySchemaVersion,
      .arr (Json.sortKeysList (roleSnapshots inputs))] := rfl

/-- **Payloads with the same bytes** are of the same facts, whatever else stands in them. -/
theorem inputs_eq_of_preimage_eq
    (h : CalculationIdentity.preimage (.obj (e.fieldsWith inputs) : PyJson D) =
      CalculationIdentity.preimage (.obj (e'.fieldsWith inputs') : PyJson D)) :
    inputs = inputs' := by
  have hvalues := valuesOf_eq (e.map_fst_fieldsWith inputs) (e'.map_fst_fieldsWith inputs')
    nodup_keys (sortKeys_of_preimage_eq (e.wf_fieldsWith inputs) (e'.wf_fieldsWith inputs') h)
  rw [valuesOf_fieldsWith, valuesOf_fieldsWith] at hvalues
  simp only [List.cons.injEq, and_true, Json.arr.injEq] at hvalues
  obtain ⟨-, -, -, -, -, -, -, -, -, -, -, -, hinputs⟩ := hvalues
  exact roleSnapshots_injective hinputs

/-- **Executions with one preimage** are the same. -/
theorem preimage_eq_iff : e.preimage D = e'.preimage D ↔ Same e e' := by
  constructor
  · intro h
    have hvalues := valuesOf_eq (e.map_fst_fieldsWith _) (e'.map_fst_fieldsWith _) nodup_keys
      (sortKeys_of_preimage_eq (e.wf_fieldsWith _) (e'.wf_fieldsWith _) h)
    rw [valuesOf_fieldsWith, valuesOf_fieldsWith] at hvalues
    simp only [sortKeys_optionalUuidJson, List.cons.injEq, and_true, uuidJson_inj,
      optionalUuidJson_inj, Json.str.injEq, Json.arr.injEq] at hvalues
    obtain ⟨horg, hcode, hversion, hspec, himpl, hperiod, hcomparison, hpolicy, hannual, hround,
      hreconcile, hschema, hinputs⟩ := hvalues
    exact ⟨horg, hcode, hversion, hspec, himpl, hperiod, hcomparison, hpolicy, hannual, hround,
      hreconcile, hschema, sortedInputs_eq_iff.mp (roleSnapshots_injective hinputs)⟩
  · rintro ⟨horg, hcode, hversion, hspec, himpl, hperiod, hcomparison, hpolicy, hannual, hround,
      hreconcile, hschema, hinputs⟩
    rw [preimage, preimage, fields, fields, fieldsWith, fieldsWith, horg, hcode, hversion, hspec,
      himpl, hperiod, hcomparison, hpolicy, hannual, hround, hreconcile, hschema,
      sortedInputs_eq_iff.mpr hinputs]

end Execution

/-- **The identity of a calculation is canonical**: executions have one preimage exactly if they
are the same, and requests exactly if all arguments agree. -/
theorem preimage_canonical (D : DoubleText) :
    (∀ e e' : Execution, e.preimage D = e'.preimage D ↔ Execution.Same e e') ∧
      ∀ r r' : Request, r.preimage D = r'.preimage D ↔ r = r' :=
  ⟨Execution.preimage_eq_iff, Request.preimage_eq_iff⟩

end CalculationIdentity

end FinanceIntelligence
