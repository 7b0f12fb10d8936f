import Vanguard.Library.Pipeline
import Vanguard.Services.Routes

/-!
# `Vanguard.Services.Schemas`: the schemas of the request bodies

`services/routes/*/*.schemas.ts` on any JavaScript value. A `Schema` has the `parse` of zod, the
constraints that it puts on a value (`satisfies`), and the lower bounds on the length of a text
that it checks before the `trim` of the text (`bounds`, with the path of the text). The
functions of the namespace `Zod` are the ones of the library that the schemas use. The checks
and the `trim` of a string are a pipeline: they apply in the order in which they are written.

`Vanguard.Services.Routes` has the same schemas on bodies that already have the types of their
fields.
-/

set_option autoImplicit false

namespace Vanguard

/-! ### Values -/

/-- A number. The two zeros are one. -/
inductive JsNumber where
  | finite (x : Rat)
  | infinite (negative : Bool)
  | nan
  deriving DecidableEq

/-- A JavaScript value. The values of `JSON.parse` have no `undefined` and no `date`, which
`parse` puts into its result. A `date` is a valid one. -/
inductive JsValue where
  | undefined
  | null
  | bool (b : Bool)
  | number (x : JsNumber)
  | string (text : String)
  | date (time : Timestamp)
  | array (items : List JsValue)
  | object (fields : List (String × JsValue))

namespace JsValue

/-- `v[name]`, for the names of the schemas, which no prototype has. -/
def get (v : JsValue) (name : String) : JsValue :=
  match v with
  | object fields => ((fields.find? fun f => f.1 == name).map Prod.snd).getD undefined
  | _ => undefined

/-- The value at the end of a path of names. -/
def follow (v : JsValue) : List String → JsValue
  | [] => v
  | name :: path => (v.get name).follow path

/-- `typeof v === 'object' && v !== null && !Array.isArray(v)`. -/
def isObject : JsValue → Bool
  | date _ | object _ => true
  | undefined | null | bool _ | number _ | string _ | array _ => false

end JsValue

/-- What the schemas use of zod and of the engine: the patterns of `uuid()` and `email()`,
`Date.parse`, and the text of an array or an object. -/
structure SchemaRuntime where
  uuid : String → Bool
  email : String → Bool
  parseDate : String → Option Timestamp
  text : JsValue → String

/-- The patterns are anchored and match no white space. -/
structure SchemaRuntime.Lawful (runtime : SchemaRuntime) : Prop where
  uuid : ∀ s, runtime.uuid s = true → trim s = s
  email : ∀ s, runtime.email s = true → trim s = s

/-- The time of a date with this time value, in milliseconds: it is cut off to an integer, and
100,000,000 days is the bound. -/
def timeClip (x : Rat) : Option Timestamp :=
  if -8640000000000000 ≤ x ∧ x ≤ 8640000000000000 then some (x.num.tdiv x.den) else none

/-- `new Date(v)`: the time, or `none` for an invalid date. -/
def dateOf (runtime : SchemaRuntime) : JsValue → Option Timestamp
  | .undefined => none
  | .null => some 0
  | .bool b => some (if b then 1 else 0)
  | .number (.finite x) => timeClip x
  | .number (.infinite _) | .number .nan => none
  | .string text => runtime.parseDate text
  | .date time => some time
  | .array items => runtime.parseDate (runtime.text (.array items))
  | .object fields => runtime.parseDate (runtime.text (.object fields))

/-! ### The combinators -/

/-- A schema. -/
structure Schema where
  parse : JsValue → Option JsValue
  satisfies : JsValue → Bool
  bounds : List (List String × Nat)

/-- A check or the `trim` of a string. -/
inductive Check where
  | min (n : Nat)
  | max (n : Nat)
  | length (n : Nat)
  | format (pattern : String → Bool)
  | trim

/-- The test of a check. `trim` is none. -/
def Check.test : Check → Option (String → Bool)
  | min n => some fun s => n ≤ jsLength s
  | max n => some fun s => jsLength s ≤ n
  | length n => some fun s => jsLength s = n
  | format pattern => some pattern
  | trim => none

/-- The least length that a check allows. -/
def Check.lower : Check → Option Nat
  | min n | length n => some n
  | max _ | format _ | trim => none

/-- A check of a number. -/
inductive NumberCheck where
  | int
  | positive
  | min (n : Int)

/-- The checks of `z.number()`. -/
def NumberCheck.holds : NumberCheck → Rat → Bool
  | int, x => x.den = 1 && -maxSafeInteger ≤ x.num && x.num ≤ maxSafeInteger
  | positive, x => 0 < x
  | min n, x => n ≤ x

/-- The field of a result. A field that is `undefined` is left out. -/
def JsValue.entry (name : String) : JsValue → List (String × JsValue)
  | undefined => []
  | v => [(name, v)]

namespace Zod

/-- `z.string()` with its checks. -/
def string (checks : List Check) : Schema where
  parse
    | .string text => (Pipeline.run trim Check.test checks text).map .string
    | _ => none
  satisfies
    | .string text => checks.all fun c => Pipeline.passes Check.test c text
    | _ => false
  bounds := ((Pipeline.early Check.test checks).filterMap Check.lower).map fun n => ([], n)

/-- A schema that only tests. -/
def test (p : JsValue → Bool) : Schema where
  parse v := if p v then some v else none
  satisfies := p
  bounds := []

/-- `z.number()` with its checks. -/
def number (checks : List NumberCheck) : Schema :=
  test fun
    | .number (.finite x) => checks.all fun c => c.holds x
    | _ => false

/-- `z.enum(options)`. -/
def enum (options : List String) : Schema :=
  test fun
    | .string text => options.contains text
    | _ => false

/-- `z.coerce.date()`. -/
def coerceDate (runtime : SchemaRuntime) : Schema where
  parse v := (dateOf runtime v).map .date
  satisfies
    | .date _ => true
    | _ => false
  bounds := []

/-- `s.optional()`. -/
def optional (s : Schema) : Schema where
  parse
    | .undefined => some .undefined
    | v => s.parse v
  satisfies
    | .undefined => true
    | v => s.satisfies v
  bounds := s.bounds

/-- `s.default(d)`. -/
def default (s : Schema) (d : JsValue) : Schema where
  parse
    | .undefined => some d
    | v => s.parse v
  satisfies := s.satisfies
  bounds := s.bounds

/-- The fields of an object, in the order of the schema. The other fields of the input are
left out. -/
def parseFields : List (String × Schema) → JsValue → Option (List (String × JsValue))
  | [], _ => some []
  | (name, s) :: rest, v => do
    let value ← s.parse (v.get name)
    let out ← parseFields rest v
    some (JsValue.entry name value ++ out)

/-- `z.object(fields)`. -/
def object (fields : List (String × Schema)) : Schema where
  parse v := if v.isObject then (parseFields fields v).map .object else none
  satisfies v := v.isObject && fields.all fun f => f.2.satisfies (v.get f.1)
  bounds := fields.flatMap fun f => f.2.bounds.map fun b => (f.1 :: b.1, b.2)

/-- `z.string().uuid().trim()`. -/
def uuid (runtime : SchemaRuntime) : Schema := string [.format runtime.uuid, .trim]

/-- `z.number().int().positive()`. -/
def positiveInt : Schema := number [.int, .positive]

/-- `z.number().int().min(0)`. -/
def naturalInt : Schema := number [.int, .min 0]

end Zod

/-! ### The schemas -/

/-- `CreateVanSchema`. -/
def CreateVanSchema (runtime : SchemaRuntime) : Schema :=
  Zod.object
    [("invoice_id", Zod.uuid runtime),
      ("expected_amount_cents", Zod.positiveInt)]

/-- `RecordPaymentSchema`. -/
def RecordPaymentSchema (runtime : SchemaRuntime) : Schema :=
  Zod.object
    [("account_number", Zod.string [.min 1, .trim]),
      ("amount_cents", Zod.positiveInt),
      ("idempotency_key", Zod.string [.min 1, .trim]),
      ("paid_at", Zod.coerceDate runtime)]

/-- `SubmitInvoiceSchema`. -/
def SubmitInvoiceSchema (runtime : SchemaRuntime) : Schema :=
  Zod.object
    [("invoice_number", Zod.string [.min 1, .max 50, .trim]),
      ("buyer_id", Zod.uuid runtime),
      ("amount_cents", Zod.positiveInt),
      ("currency", Zod.default (Zod.string [.length 3]) (.string "INR")),
      ("due_date", Zod.coerceDate runtime)]

/-- `ApproveInvoiceSchema`. -/
def ApproveInvoiceSchema : Schema :=
  Zod.object [("buyer_signature", Zod.string [.min 10, .trim])]

/-- `AssessRiskSchema`. -/
def AssessRiskSchema (runtime : SchemaRuntime) : Schema :=
  Zod.object
    [("invoice_id", Zod.uuid runtime),
      ("three_way_match_input", Zod.object
        [("invoice_id", Zod.uuid runtime),
          ("invoice_amount_cents", Zod.positiveInt),
          ("po_amount_cents", Zod.positiveInt),
          ("delivery_amount_cents", Zod.positiveInt),
          ("po_number", Zod.string [.min 1, .trim]),
          ("delivery_receipt_id", Zod.string [.min 1, .trim])]),
      ("anomaly_signals", Zod.object
        [("invoice_id", Zod.uuid runtime),
          ("buyer_id", Zod.uuid runtime),
          ("supplier_id", Zod.uuid runtime),
          ("amount_cents", Zod.positiveInt),
          ("due_date", Zod.coerceDate runtime),
          ("submitted_at", Zod.coerceDate runtime),
          ("avg_invoice_amount_cents", Zod.naturalInt),
          ("days_until_due", Zod.naturalInt),
          ("prior_default_count", Zod.naturalInt)])]

/-- `RegisterSchema`. -/
def RegisterSchema (runtime : SchemaRuntime) : Schema :=
  Zod.object
    [("legal_name", Zod.string [.min 2, .max 200, .trim]),
      ("gstin", Zod.optional (Zod.string [.length 15, .trim])),
      ("role", Zod.enum ["supplier", "buyer"]),
      ("email", Zod.string [.format runtime.email, .trim]),
      ("password", Zod.string [.min 8])]

/-- `LoginSchema`. -/
def LoginSchema (runtime : SchemaRuntime) : Schema :=
  Zod.object
    [("email", Zod.string [.format runtime.email, .trim]),
      ("password", Zod.string [.min 1])]

/-- The schemas that a route parses its body with. -/
inductive RequestSchema where
  | createVan
  | recordPayment
  | submitInvoice
  | approveInvoice
  | assessRisk
  | register
  | login

/-- The schema of each validated route. -/
def RequestSchema.schema (runtime : SchemaRuntime) : RequestSchema → Schema
  | createVan => CreateVanSchema runtime
  | recordPayment => RecordPaymentSchema runtime
  | submitInvoice => SubmitInvoiceSchema runtime
  | approveInvoice => ApproveInvoiceSchema
  | assessRisk => AssessRiskSchema runtime
  | register => RegisterSchema runtime
  | login => LoginSchema runtime

example (runtime : SchemaRuntime) : (RegisterSchema runtime).bounds =
    [(["legal_name"], 2), (["gstin"], 15)] := rfl

example (runtime : SchemaRuntime) : (AssessRiskSchema runtime).bounds =
    [(["three_way_match_input", "po_number"], 1),
      (["three_way_match_input", "delivery_receipt_id"], 1)] := rfl

end Vanguard
