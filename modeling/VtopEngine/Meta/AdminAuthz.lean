import VtopEngine.Meta.Command

/-! # Who may ask the admin endpoint for what

The admin endpoint authorizes every frame before its handler sees it (`authz.rs`,
`dispatch_admin`).  The Common Name of the client's certificate is read as an identity;
operators are a configured list of names.

* `AdminIdentity.fromCommonName` — a UUID, else an integer, else a name.
* `classify`, `AdminAuthorizer` — what a command may affect, and who may submit it.
* `dispatchAdmin` — a frame reaches the handler, or is refused.
* `admin_list_literal_iff` — every operator list is obeyed as it is written exactly for the
  names that are spelled as their identities are displayed.
-/

namespace VtopEngine.Meta

/-! ## Texts of identifiers -/

/-- How identifiers are read and displayed (`Uuid::parse_str` and `Uuid`'s `Display`).  Every form that is read has 32
digits. -/
class UuidText where
  parse : String → Option Uuid
  display : Uuid → String
  parse_short : ∀ text, text.length < 32 → parse text = none

/-- A stand-in with which short names can be evaluated. -/
abbrev UuidText.unread : UuidText where
  parse _ := none
  display _ := ""
  parse_short _ _ := rfl

/-- The number that decimal digits spell. -/
def decimalNumber (digits : List Char) : Option Nat :=
  digits.foldlM (fun value (digit : Char) => if digit.isDigit then some (10 * value + (digit.toNat - '0'.toNat)) else none) 0

/-- An unsigned 64-bit integer in decimal: a plus sign and leading zeros are read over. -/
def parseU64 (text : String) : Option UInt64 :=
  let digits := match text.toList with
    | '+' :: rest => rest
    | digits => digits
  if digits = [] then none
  else (decimalNumber digits).bind fun value => if value < 2 ^ 64 then some (UInt64.ofNat value) else none

section Texts

variable [UuidText]

/-! ## Identities and classes -/

inductive AdminIdentity
  | Node (uuid : Uuid)
  | MetaNode (id : UInt64)
  | Named (name : String)
  | Anonymous
  deriving DecidableEq

namespace AdminIdentity

def fromCommonName (commonName : String) : AdminIdentity :=
  match UuidText.parse commonName with
  | some uuid => .Node uuid
  | none =>
    match parseU64 commonName with
    | some id => .MetaNode id
    | none => .Named commonName

def describe : AdminIdentity → String
  | .Node uuid => s!"node {UuidText.display uuid}"
  | .MetaNode id => s!"meta node {id}"
  | .Named name => s!"operator {name.quote}"
  | .Anonymous => "an unauthenticated caller (plaintext endpoint)"

end AdminIdentity

inductive CommandClass
  | Read | NodeScoped | ClusterScoped
  deriving DecidableEq

/-- What a proposal may affect, and the holder it names; everything not listed is cluster-scoped. -/
def classify : MetadataCommand → CommandClass × Option Uuid
  | .AcquireRangeLease args | .RenewRangeLease args | .ReportPromotionOutcome args | .EnsureGroupMemberForRange args
  | .CommitGroupCursorFenced args | .EnsureGroupMemberCoordinated args | .CommitGroupCursorCoordinated args
  | .SplitRange args => (.NodeScoped, some args.holderNodeUuid)
  | _ => (.ClusterScoped, none)

inductive Refusal
  | WrongHolder (presented requested : Uuid)
  | NotAnOperator (identity : String)
  deriving DecidableEq

def Refusal.message : Refusal → String
  | .WrongHolder presented requested =>
    s!"certificate identifies node {UuidText.display presented}, which may not submit lease commands for node {UuidText.display requested}"
  | .NotAnOperator identity => s!"{identity} is not a configured operator and may not submit cluster-scoped admin commands"

/-! ## The policy -/

/-- The configured operators; `none` where no policy was configured. -/
structure AdminAuthorizer where
  operators : Option (List String)

namespace AdminAuthorizer

def withOperators (operators : List String) : AdminAuthorizer := ⟨some operators⟩

def permissive : AdminAuthorizer := ⟨none⟩

/-- An identity is turned back into text before it is looked up. -/
def isOperator (authorizer : AdminAuthorizer) (identity : AdminIdentity) : Bool :=
  match authorizer.operators with
  | none => true
  | some operators =>
    match identity with
    | .Node uuid => operators.contains (UuidText.display uuid)
    | .MetaNode id => operators.contains (toString id.toNat)
    | .Named name => operators.contains name
    | .Anonymous => false

def authorizeRead (_authorizer : AdminAuthorizer) (_identity : AdminIdentity) : Except Refusal Unit := .ok ()

/-- Bootstrap and membership changes. -/
def authorizeCluster (authorizer : AdminAuthorizer) (identity : AdminIdentity) : Except Refusal Unit :=
  if authorizer.isOperator identity then .ok () else .error (.NotAnOperator identity.describe)

/-- A proposal: an operator's, or a node's for itself. -/
def authorizeCommand (authorizer : AdminAuthorizer) (identity : AdminIdentity) (command : MetadataCommand) :
    Except Refusal Unit :=
  if authorizer.isOperator identity then .ok ()
  else
    match classify command with
    | (.Read, _) => .ok ()
    | (.NodeScoped, some holder) =>
      match identity with
      | .Node uuid => if uuid = holder then .ok () else .error (.WrongHolder uuid holder)
      | other => .error (.NotAnOperator other.describe)
    | (.NodeScoped, none) | (.ClusterScoped, _) => .error (.NotAnOperator identity.describe)

end AdminAuthorizer

/-! ## Dispatch -/

/-- A request as its handler gets it. -/
inductive AdminRequest
  | status
  | readRangeLease (payload : List UInt8)
  | readSegmentPlacement (payload : List UInt8)
  | readRangeTransitions (payload : List UInt8)
  | readGroupCursor (payload : List UInt8)
  | readRangeReplicaSet (payload : List UInt8)
  | propose (command : MetadataCommand)
  | init (members : List UInt64)
  | addLearner (nodeId : UInt64)
  | changeMembership (voters : List UInt64) (retainRemovedAsLearners : Bool)

structure VtpmFrame where
  kind : UInt16
  payload : List UInt8

def KIND_ADMIN_STATUS_REQ : UInt16 := 10
def KIND_ADMIN_PROPOSE_REQ : UInt16 := 12
def KIND_ADMIN_INIT_REQ : UInt16 := 15
def KIND_ADMIN_ADD_LEARNER_REQ : UInt16 := 16
def KIND_ADMIN_CHANGE_MEMBERSHIP_REQ : UInt16 := 17
def KIND_ADMIN_READ_RANGE_LEASE_REQ : UInt16 := 19
def KIND_ADMIN_READ_SEGMENT_PLACEMENT_REQ : UInt16 := 21
def KIND_ADMIN_READ_RANGE_TRANSITIONS_REQ : UInt16 := 23
def KIND_ADMIN_READ_GROUP_CURSOR_REQ : UInt16 := 25
def KIND_ADMIN_READ_RANGE_REPLICA_SET_REQ : UInt16 := 27

/-- How the payloads of the requests are read; the reads' own fields play no part in the policy. -/
structure AdminCodec where
  read : List UInt8 → Except CodecError Unit
  propose : List UInt8 → Except CodecError MetadataCommand
  init : List UInt8 → Except CodecError (List UInt64)
  addLearner : List UInt8 → Except CodecError UInt64
  changeMembership : List UInt8 → Except CodecError (List UInt64 × Bool)

inductive TransportError
  | Codec (error : CodecError)
  | Unauthorized (message : String)
  | UnexpectedKind (kind : UInt16)

def authorize (outcome : Except Refusal Unit) : Except TransportError Unit :=
  outcome.mapError fun refusal => .Unauthorized refusal.message

def decoded {α : Type} (outcome : Except CodecError α) : Except TransportError α := outcome.mapError .Codec

section Dispatch

variable (codec : AdminCodec) (authorizer : AdminAuthorizer) (identity : AdminIdentity)

/-- A read: decoded, and open to everyone. -/
def dispatchRead (payload : List UInt8) (request : AdminRequest) : Except TransportError AdminRequest := do
  decoded (codec.read payload)
  authorize (authorizer.authorizeRead identity)
  return request

/-- What the handler is called with, if it is called. -/
def dispatchAdmin (frame : VtpmFrame) : Except TransportError AdminRequest :=
  if frame.kind = KIND_ADMIN_STATUS_REQ then dispatchRead codec authorizer identity frame.payload .status
  else if frame.kind = KIND_ADMIN_READ_RANGE_LEASE_REQ then
    dispatchRead codec authorizer identity frame.payload (.readRangeLease frame.payload)
  else if frame.kind = KIND_ADMIN_READ_SEGMENT_PLACEMENT_REQ then
    dispatchRead codec authorizer identity frame.payload (.readSegmentPlacement frame.payload)
  else if frame.kind = KIND_ADMIN_READ_RANGE_TRANSITIONS_REQ then
    dispatchRead codec authorizer identity frame.payload (.readRangeTransitions frame.payload)
  else if frame.kind = KIND_ADMIN_READ_GROUP_CURSOR_REQ then
    dispatchRead codec authorizer identity frame.payload (.readGroupCursor frame.payload)
  else if frame.kind = KIND_ADMIN_READ_RANGE_REPLICA_SET_REQ then
    dispatchRead codec authorizer identity frame.payload (.readRangeReplicaSet frame.payload)
  else if frame.kind = KIND_ADMIN_PROPOSE_REQ then do
    let command ← decoded (codec.propose frame.payload)
    authorize (authorizer.authorizeCommand identity command)
    return .propose command
  else if frame.kind = KIND_ADMIN_INIT_REQ then do
    let members ← decoded (codec.init frame.payload)
    authorize (authorizer.authorizeCluster identity)
    return .init members
  else if frame.kind = KIND_ADMIN_ADD_LEARNER_REQ then do
    let nodeId ← decoded (codec.addLearner frame.payload)
    authorize (authorizer.authorizeCluster identity)
    return .addLearner nodeId
  else if frame.kind = KIND_ADMIN_CHANGE_MEMBERSHIP_REQ then do
    let change ← decoded (codec.changeMembership frame.payload)
    authorize (authorizer.authorizeCluster identity)
    return .changeMembership change.1 change.2
  else .error (.UnexpectedKind frame.kind)

end Dispatch

/-! ## The list as it is written -/

/-- What the policy answers for a request. -/
def AdminAuthorizer.authorizeRequest (authorizer : AdminAuthorizer) (identity : AdminIdentity) :
    AdminRequest → Except Refusal Unit
  | .propose command => authorizer.authorizeCommand identity command
  | .init _ | .addLearner _ | .changeMembership .. => authorizer.authorizeCluster identity
  | _ => authorizer.authorizeRead identity

/-- The request a frame carries: what reaches the handler where nothing is refused. -/
def Carries (codec : AdminCodec) (frame : VtpmFrame) (request : AdminRequest) : Prop :=
  dispatchAdmin codec .permissive .Anonymous frame = .ok request

section Dispatch

variable {authorizer : AdminAuthorizer} {identity : AdminIdentity}

/-- Decode, authorize, hand over: the shape of every arm of the dispatch. -/
theorem arm_eq_ok {α : Type} {payload : Except CodecError α} {outcome : α → Except Refusal Unit}
    {result : α → AdminRequest} :
    (do
      let value ← decoded payload
      authorize (outcome value)
      return result value : Except TransportError AdminRequest) = .ok request ↔
    ∃ value, payload = .ok value ∧ result value = request ∧ outcome value = .ok () := by
  cases payload with
  | error error => simp [decoded, Except.mapError, bind, Except.bind]
  | ok value =>
    cases isOutcome : outcome value <;>
      simp [decoded, authorize, Except.mapError, bind, Except.bind, pure, Except.pure, isOutcome]

/-- An arm hands over what it hands over where nothing is refused, if the policy allows that request. -/
theorem arm_iff {α : Type} {payload : Except CodecError α} {outcome permitted : α → Except Refusal Unit}
    {result : α → AdminRequest} (isPolicy : ∀ value, authorizer.authorizeRequest identity (result value) = outcome value)
    (isPermitted : ∀ value, permitted value = .ok ()) :
    (do
      let value ← decoded payload
      authorize (outcome value)
      return result value : Except TransportError AdminRequest) = .ok request ↔
    (do
      let value ← decoded payload
      authorize (permitted value)
      return result value : Except TransportError AdminRequest) = .ok request ∧
      authorizer.authorizeRequest identity request = .ok () := by
  rw [arm_eq_ok, arm_eq_ok]
  constructor
  · rintro ⟨value, isPayload, rfl, allowed⟩
    exact ⟨⟨value, isPayload, rfl, isPermitted value⟩, (isPolicy value).trans allowed⟩
  · rintro ⟨⟨value, isPayload, rfl, -⟩, allowed⟩
    exact ⟨value, isPayload, rfl, (isPolicy value).symm.trans allowed⟩

omit [UuidText] in
theorem byKind {isKind allowed : Prop} [Decidable isKind] {arm others arm' others' : Except TransportError AdminRequest}
    (ofArm : arm = .ok request ↔ arm' = .ok request ∧ allowed)
    (ofOthers : others = .ok request ↔ others' = .ok request ∧ allowed) :
    (if isKind then arm else others) = .ok request ↔ (if isKind then arm' else others') = .ok request ∧ allowed := by
  split
  · exact ofArm
  · exact ofOthers

/-- Every arm authorizes the request it has decoded, and only then hands it over. -/
theorem dispatchAdmin_eq_ok : dispatchAdmin codec authorizer identity frame = .ok request ↔
      Carries codec frame request ∧ authorizer.authorizeRequest identity request = .ok () := by
  unfold Carries dispatchAdmin dispatchRead
  -- Ten kinds of frame have an arm, and a frame of any other kind is refused.
  iterate 10 refine byKind (arm_iff (fun _ => rfl) (fun _ => rfl)) ?_
  simp

end Dispatch

/-- The text that a Common Name is looked up under. -/
def canonicalName (commonName : String) : String :=
  match UuidText.parse commonName with
  | some uuid => UuidText.display uuid
  | none =>
    match parseU64 commonName with
    | some id => toString id.toNat
    | none => commonName

/-- The list read literally: a listed name may ask for everything, and a node for its own leases. -/
def ListedFor (operators : List String) (commonName : String) : AdminRequest → Prop
  | .propose command =>
    match classify command with
    | (.NodeScoped, some holder) => commonName ∈ operators ∨ UuidText.parse commonName = some holder
    | _ => commonName ∈ operators
  | .init _ | .addLearner _ | .changeMembership .. => commonName ∈ operators
  | _ => True

/-- The requests that the list has no part in: reads, and a node's own proposals. -/
def Unlisted (commonName : String) : AdminRequest → Prop
  | .propose command => ∃ holder, classify command = (.NodeScoped, some holder) ∧ UuidText.parse commonName = some holder
  | .init _ | .addLearner _ | .changeMembership .. => False
  | _ => True

omit [UuidText] in
theorem classify_cases (command) :
    (∃ holder, classify command = (.NodeScoped, some holder)) ∨ classify command = (.ClusterScoped, none) := by
  cases command <;> simp [classify]

open AdminAuthorizer

section Policy

variable {operators : List String} {commonName : String}

theorem isOperator_iff : (withOperators operators).isOperator (.fromCommonName commonName) = true ↔
      canonicalName commonName ∈ operators := by
  unfold AdminIdentity.fromCommonName canonicalName
  cases UuidText.parse commonName with
  | some uuid => simp [isOperator, withOperators]
  | none => cases parseU64 commonName <;> simp [isOperator, withOperators]

theorem fromCommonName_eq_node_iff :
    AdminIdentity.fromCommonName commonName = .Node uuid ↔ UuidText.parse commonName = some uuid := by
  unfold AdminIdentity.fromCommonName
  cases UuidText.parse commonName with
  | some found => simp
  | none => cases parseU64 commonName <;> simp

theorem authorizeCluster_iff : (withOperators operators).authorizeCluster (.fromCommonName commonName) = .ok () ↔
      canonicalName commonName ∈ operators := by
  rw [← isOperator_iff]
  simp [authorizeCluster]

/-- A proposal is an operator's, or that of the holder it names. -/
theorem authorizeCommand_iff : (withOperators operators).authorizeCommand (.fromCommonName commonName) command = .ok () ↔
      canonicalName commonName ∈ operators ∨ Unlisted commonName (.propose command) := by
  rw [← isOperator_iff]
  unfold authorizeCommand Unlisted
  split
  · next isOperator => simp [isOperator]
  · next notOperator =>
    obtain ⟨holder, isClass⟩ | isClass := classify_cases command
    · simp only [isClass, notOperator, Bool.false_eq_true, Prod.mk.injEq, true_and, Option.some.injEq, exists_eq_left',
        false_or, ← fromCommonName_eq_node_iff]
      cases AdminIdentity.fromCommonName commonName <;> simp
    · simp [isClass, notOperator]

/-- The list decides under the name's canonical text what, read literally, it decides under the name. -/
theorem authorizeRequest_iff : (withOperators operators).authorizeRequest (.fromCommonName commonName) request = .ok () ↔
      canonicalName commonName ∈ operators ∨ Unlisted commonName request := by
  cases request with
  | propose command => exact authorizeCommand_iff
  | init _ | addLearner _ | changeMembership _ _ => simpa [authorizeRequest, Unlisted] using authorizeCluster_iff
  | _ => simp [authorizeRequest, authorizeRead, Unlisted]

theorem listedFor_iff : ListedFor operators commonName request ↔ commonName ∈ operators ∨ Unlisted commonName request := by
  cases request with
  | propose command => obtain ⟨holder, isClass⟩ | isClass := classify_cases command <;> simp [ListedFor, Unlisted, isClass]
  | _ => simp [ListedFor, Unlisted]

end Policy

/-- The name is spelled as its identity is displayed, or is neither an identifier nor an integer. -/
@[mk_iff spelled_fields]
structure Spelled (commonName : String) : Prop where
  uuid : ∀ uuid, UuidText.parse commonName = some uuid → UuidText.display uuid = commonName
  integer : UuidText.parse commonName = none → ∀ id, parseU64 commonName = some id → toString id.toNat = commonName

theorem spelled_iff : Spelled commonName ↔ canonicalName commonName = commonName := by
  rw [spelled_fields, canonicalName]
  cases UuidText.parse commonName with
  | some uuid => simp
  | none => cases parseU64 commonName <;> simp

/-- The request reaches the handler exactly if the list, read literally, has it do so. -/
def ObeysList (codec : AdminCodec) (operators : List String) (commonName : String) (frame : VtpmFrame)
    (request : AdminRequest) : Prop :=
  dispatchAdmin codec (.withOperators operators) (.fromCommonName commonName) frame = .ok request
    ↔ ListedFor operators commonName request

theorem obeysList_iff {operators : List String} (carried : Carries codec frame request) :
    ObeysList codec operators commonName frame request ↔
      Unlisted commonName request ∨ (canonicalName commonName ∈ operators ↔ commonName ∈ operators) := by
  rw [ObeysList, dispatchAdmin_eq_ok, authorizeRequest_iff, listedFor_iff]
  by_cases unlisted : Unlisted commonName request <;> simp [carried, unlisted]

/-- A list is obeyed as it is written, whatever it holds, exactly for a name that is spelled as its identity is displayed;
for another name, exactly if it holds both spellings or neither.  A read, and a node's own proposal, do not depend on
the list. -/
theorem admin_list_literal_iff (codec : AdminCodec) (commonName : String) (frame : VtpmFrame) (request : AdminRequest)
    (carried : Carries codec frame request) :
    ((∀ operators, ObeysList codec operators commonName frame request) ↔ Unlisted commonName request ∨ Spelled commonName)
      ∧ ∀ operators, ObeysList codec operators commonName frame request ↔ Unlisted commonName request ∨ Spelled commonName
        ∨ (commonName ∈ operators ∧ canonicalName commonName ∈ operators)
        ∨ (commonName ∉ operators ∧ canonicalName commonName ∉ operators) := by
  simp only [obeysList_iff carried, spelled_iff]
  refine ⟨⟨fun obeyed => ?_, fun alike operators => ?_⟩, fun operators => ?_⟩
  · -- The list of the displayed text alone tells the two spellings apart.
    exact (obeyed [canonicalName commonName]).imp_right fun both => by simpa [eq_comm] using both
  · exact alike.imp_right fun same => by rw [same]
  · by_cases same : canonicalName commonName = commonName
    · simp [same]
    · by_cases listed : commonName ∈ operators <;> simp [same, listed]

end Texts

/-- A codec for frames that carry nothing but their kind. -/
def bareCodec : AdminCodec where
  read _ := .ok ()
  propose _ := .error (.Truncated "command")
  init _ := .ok [1]
  addLearner _ := .ok 1
  changeMembership _ := .ok ([1], false)

/-- However identifiers are read, `007` is the integer seven. -/
theorem fromCommonName_padded [UuidText] : AdminIdentity.fromCommonName "007" = .MetaNode 7 := by
  rw [AdminIdentity.fromCommonName, UuidText.parse_short "007" (by decide)]
  rfl

attribute [local instance] UuidText.unread

theorem listed_name_may_init : ObeysList bareCodec ["ops"] "ops" ⟨KIND_ADMIN_INIT_REQ, []⟩ (.init [1]) := by
  have unread : parseU64 "ops" = none := by decide
  have spelled : Spelled "ops" := ⟨by simp, by simp [unread]⟩
  exact ((admin_list_literal_iff bareCodec "ops" ⟨KIND_ADMIN_INIT_REQ, []⟩ (.init [1]) rfl).2 ["ops"]).mpr
    (.inr (.inl spelled))

/-- The Common Name `007` is looked up as `7`: refused where it is listed, let through where it is not. -/
theorem padded_name_misread :
    (dispatchAdmin bareCodec (.withOperators ["7"]) (.fromCommonName "007") ⟨KIND_ADMIN_INIT_REQ, []⟩ = .ok (.init [1]) ∧
        ¬ ListedFor ["7"] "007" (.init [1])) ∧
      dispatchAdmin bareCodec (.withOperators ["007"]) (.fromCommonName "007") ⟨KIND_ADMIN_INIT_REQ, []⟩ =
          .error (.Unauthorized "meta node 7 is not a configured operator and may not submit cluster-scoped admin commands") ∧
        ListedFor ["007"] "007" (.init [1]) := by
  rw [fromCommonName_padded]
  refine ⟨⟨rfl, ?_⟩, rfl, ?_⟩
  · change ¬ "007" ∈ ["7"]
    decide
  · change "007" ∈ ["007"]
    decide

end VtopEngine.Meta
