/-
Lockinspiel/IntoPath.lean

`#[derive(IntoPath)]`: what a route says of itself, from its attributes.

The macro walks over the configs of the first attribute of the struct and over
the attributes of its fields, and fills in the parts of the code that it
generates; `Operation` are these parts.  A config can be given more than once:
the last path, summary, description and responses win, and so does the last
`#[body]`, whereas methods, tags, securities and parameters add up.

`Describes` says what the operation of a struct is, without the walk and over the
grammar of the configs.  The macro generates an operation exactly if the struct
describes one, and then this one (`deriveIntoPath_iff`); it never panics.
-/
import Mathlib.Data.List.Forall2
import Mathlib.Data.List.Induction
import Lockinspiel.PathConfigs

namespace Lockinspiel

namespace Utoipa

open Grammar

/-! ### Structs -/

structure Attribute where
  path : String
  /-- What stands between the parentheses; `none` for `#[path]` and
  `#[path = value]`. -/
  args : Option TokenStream

structure Field where
  attrs : List Attribute
  ident : String
  ty : TokenStream

structure ItemStruct where
  attrs : List Attribute
  /-- The named fields; `none` for a struct without names. -/
  fields : Option (List Field)

/-! ### Operations -/

inductive HttpMethod
  | get | post | put | delete | options | head | patch | trace
deriving DecidableEq

structure RequestBody where
  description : Option ConfigItem
  /-- `none` is `"application/json"`. -/
  contentType : Option ConfigItem
  ty : TokenStream

structure Parameter where
  description : Option ConfigItem
  parameterIn : Option String
  name : String
  ty : TokenStream

/-- What is filled in. -/
structure Operation where
  httpMethods : List HttpMethod := []
  path : Option ConfigItem := none
  summary : Option ConfigItem := none
  description : Option ConfigItem := none
  requestBody : Option RequestBody := none
  parameters : List Parameter := []
  responses : Option TokenStream := none
  securities : List SecurityRequirements := []
  tags : List ConfigItem := []
  schemas : List TokenStream := []

/-- How the macro fails. -/
inductive Failure
  | compileError
  | panic
deriving DecidableEq

/-! ### The macro -/

/-- The match on the string of an `HttpMethod`; `none` is the panic. -/
def httpMethod (method : String) : Option HttpMethod :=
  match method with
  | "get" => some .get
  | "post" => some .post
  | "put" => some .put
  | "delete" => some .delete
  | "options" => some .options
  | "head" => some .head
  | "patch" => some .patch
  | "trace" => some .trace
  | _ => none

variable (isType : TokenStream → Bool)

/-- `parse_args::<CommaDelimetedConfigs>()`. -/
def parseArgs (attr : Attribute) : Except Failure (List Configs) :=
  match attr.args.bind (parseConfigs isType) with
  | some configs => .ok configs
  | none => .error .compileError

/-- The configs of the first attribute of the struct. -/
def structArgs (attrs : List Attribute) : Except Failure (List Configs) :=
  match attrs.head? with
  | some attr => parseArgs isType attr
  | none => pure []

/-- The configs of an attribute of a field, which may have none. -/
def fieldArgs (attr : Attribute) : Except Failure (List Configs) :=
  match attr.args with
  | some _ => parseArgs isType attr
  | none => .ok []

/-- The loop over the configs of a `#[body]`. -/
def bodyConfig (body : RequestBody) : Configs → RequestBody
  | .description item => { body with description := some item }
  | .contentType item => { body with contentType := some item }
  | _ => body

/-- The loop over the configs of a `#[param]`. -/
def paramConfig (parameter : Parameter) : Configs → Parameter
  | .description item => { parameter with description := some item }
  | .parameterIn ident => { parameter with parameterIn := some ident }
  | _ => parameter

/-- One attribute of a field. -/
def fieldAttr (field : Field) (op : Operation) (attr : Attribute) : Except Failure Operation :=
  if attr.path = "body" then do
    let configs ← fieldArgs isType attr
    let body := configs.foldl bodyConfig ⟨none, none, field.ty⟩
    return { op with requestBody := some body, schemas := op.schemas ++ [field.ty] }
  else if attr.path = "param" then do
    let configs ← fieldArgs isType attr
    let parameter := configs.foldl paramConfig ⟨none, none, field.ident, field.ty⟩
    return { op with parameters := op.parameters ++ [parameter] }
  else return op

/-- The loop over the fields. -/
def fieldAttrs (op : Operation) (field : Field) : Except Failure Operation :=
  field.attrs.foldlM (fieldAttr isType field) op

/-- One config of the struct. -/
def structConfig (op : Operation) : Configs → Except Failure Operation
  | .httpMethod method =>
      match httpMethod method with
      | some m => .ok { op with httpMethods := op.httpMethods ++ [m] }
      | none => .error .panic
  | .path item => .ok { op with path := some item }
  | .tag item => .ok { op with tags := op.tags ++ [item] }
  | .summary item => .ok { op with summary := some item }
  | .description item => .ok { op with description := some item }
  | .responses ty => .ok { op with responses := some ty }
  | .security requirements => .ok { op with securities := op.securities ++ requirements }
  | .parameterIn _ | .contentType _ | .none => .ok op

/-- `derive_into_path`. -/
def deriveIntoPath (ast : ItemStruct) : Except Failure Operation := do
  let some fields := ast.fields | throw .compileError
  let configs ← structArgs isType ast.attrs
  let op ← fields.foldlM (fieldAttrs isType) {}
  configs.foldlM structConfig op

/-! ### What a struct describes -/

namespace Configs

def method? : Configs → Option HttpMethod
  | .httpMethod method => Utoipa.httpMethod method
  | _ => Option.none

def parameterIn? : Configs → Option String
  | .parameterIn ident => some ident
  | _ => Option.none

def path? : Configs → Option ConfigItem
  | .path item => some item
  | _ => Option.none

def tag? : Configs → Option ConfigItem
  | .tag item => some item
  | _ => Option.none

def summary? : Configs → Option ConfigItem
  | .summary item => some item
  | _ => Option.none

def description? : Configs → Option ConfigItem
  | .description item => some item
  | _ => Option.none

def responses? : Configs → Option TokenStream
  | .responses ty => some ty
  | _ => Option.none

def contentType? : Configs → Option ConfigItem
  | .contentType item => some item
  | _ => Option.none

def securities : Configs → List SecurityRequirements
  | .security requirements => requirements
  | _ => []

end Configs

/-- The last config of a kind. -/
def last {α : Type} (f : Configs → Option α) (cs : List Configs) : Option α :=
  (cs.filterMap f).getLast?

/-- The attributes of the fields, each with its field. -/
def attributes (fields : List Field) : List (Field × Attribute) :=
  fields.flatMap fun field => field.attrs.map fun attr => (field, attr)

def ofName (name : String) (pairs : List (Field × Attribute)) : List (Field × Attribute) :=
  pairs.filter fun p => p.2.path = name

/-- The configs of an attribute. -/
def Holds (attr : Attribute) (cs : List Configs) : Prop :=
  ∃ ts, attr.args = some ts ∧ Terminated TokenTree.isComma (Spells isType) cs ts

/-- The first attribute of a struct, which has to hold configs. -/
def StructHolds (attrs : List Attribute) (cs : List Configs) : Prop :=
  match attrs with
  | [] => cs = []
  | attr :: _ => Holds isType attr cs

/-- An attribute of a field may do without. -/
def FieldHolds (attr : Attribute) (cs : List Configs) : Prop :=
  Holds isType attr cs ∨ attr.args = none ∧ cs = []

def IsBody (p : Field × Attribute) (body : RequestBody) : Prop :=
  ∃ cs, FieldHolds isType p.2 cs ∧
    body = ⟨last Configs.description? cs, last Configs.contentType? cs, p.1.ty⟩

def IsParameter (p : Field × Attribute) (parameter : Parameter) : Prop :=
  ∃ cs, FieldHolds isType p.2 cs ∧
    parameter = ⟨last Configs.description? cs, last Configs.parameterIn? cs, p.1.ident, p.1.ty⟩

/-- The operation of a struct. -/
inductive Describes : ItemStruct → Operation → Prop
  | mk {attrs fields cs bodies parameters} (hcs : StructHolds isType attrs cs)
      (hbodies : List.Forall₂ (IsBody isType) (ofName "body" (attributes fields)) bodies)
      (hparameters :
        List.Forall₂ (IsParameter isType) (ofName "param" (attributes fields)) parameters) :
      Describes ⟨attrs, some fields⟩
        { httpMethods := cs.filterMap Configs.method?
          path := last Configs.path? cs
          summary := last Configs.summary? cs
          description := last Configs.description? cs
          requestBody := bodies.getLast?
          parameters := parameters
          responses := last Configs.responses? cs
          securities := cs.flatMap Configs.securities
          tags := cs.filterMap Configs.tag?
          schemas := bodies.map RequestBody.ty }

/-! ### The configs of an attribute -/

section

variable {isType} {cs : List Configs}

theorem bind_eq_ok {ε α β : Type} {x : Except ε α} {f : α → Except ε β} {b : β} :
    x >>= f = .ok b ↔ ∃ a, x = .ok a ∧ f a = .ok b := by
  cases x with
  | error e => exact iff_of_false nofun fun ⟨_, h, _⟩ => nomatch h
  | ok a =>
      refine ⟨fun h => ⟨a, rfl, h⟩, ?_⟩
      rintro ⟨_, ⟨⟩, h⟩
      exact h

theorem pure_eq_ok {ε α : Type} {a b : α} : (pure a : Except ε α) = .ok b ↔ b = a :=
  Except.ok.injEq a b ▸ eq_comm

theorem bind_ne_panic {α β : Type} {x : Except Failure α} {f : α → Except Failure β}
    (hx : x ≠ .error .panic) (hf : ∀ a, x = .ok a → f a ≠ .error .panic) :
    x >>= f ≠ .error .panic := by
  cases x with
  | error e => exact fun h => hx (congrArg _ (Except.error.inj h))
  | ok a => exact hf a rfl

theorem last_concat {α : Type} (f : Configs → Option α) (cs : List Configs) (c : Configs) :
    last f (cs ++ [c]) = (f c).or (last f cs) := by
  rw [last, List.filterMap_append]
  cases h : f c with
  | none => simp [h, last]
  | some a => simp [h]

theorem last_singleton {α : Type} (f : Configs → Option α) (c : Configs) :
    last f [c] = f c := by
  rw [← List.nil_append [c], last_concat]
  exact Option.or_none

theorem foldl_bodyConfig (cs : List Configs) (ty : TokenStream) :
    cs.foldl bodyConfig ⟨none, none, ty⟩ =
      ⟨last Configs.description? cs, last Configs.contentType? cs, ty⟩ := by
  induction cs using List.reverseRecOn with
  | nil => rfl
  | append_singleton cs c ih =>
      rw [List.foldl_concat, ih, last_concat, last_concat]
      cases c <;> rfl

theorem foldl_paramConfig (cs : List Configs) (name : String) (ty : TokenStream) :
    cs.foldl paramConfig ⟨none, none, name, ty⟩ =
      ⟨last Configs.description? cs, last Configs.parameterIn? cs, name, ty⟩ := by
  induction cs using List.reverseRecOn with
  | nil => rfl
  | append_singleton cs c ih =>
      rw [List.foldl_concat, ih, last_concat, last_concat]
      cases c <;> rfl

theorem parseArgs_eq_ok {attr : Attribute} :
    parseArgs isType attr = .ok cs ↔ Holds isType attr cs := by
  have hiff : ∀ ts, parseConfigs isType ts = some cs ↔
      Terminated TokenTree.isComma (Spells isType) cs ts :=
    fun ts => parseTerminated_iff reads_configs ts cs
  simp only [parseArgs, Holds, ← hiff]
  rw [← Option.bind_eq_some_iff]
  cases attr.args.bind (parseConfigs isType) <;> simp

theorem fieldArgs_eq_ok {attr : Attribute} :
    fieldArgs isType attr = .ok cs ↔ FieldHolds isType attr cs := by
  rw [fieldArgs, FieldHolds, ← parseArgs_eq_ok]
  cases h : attr.args with
  | none => simp [parseArgs, h, eq_comm]
  | some ts => simp

theorem parseArgs_ne_panic {attr : Attribute} : parseArgs isType attr ≠ .error .panic := by
  unfold parseArgs
  split <;> nofun

theorem fieldArgs_ne_panic {attr : Attribute} : fieldArgs isType attr ≠ .error .panic := by
  unfold fieldArgs
  split
  · exact parseArgs_ne_panic
  · nofun

/-! ### The loop over the fields -/

variable {field : Field} {attr : Attribute} {op op' : Operation}

/-- The walk over the fields and their attributes is one over the pairs. -/
theorem foldlM_fieldAttrs (fields : List Field) (op : Operation) :
    fields.foldlM (fieldAttrs isType) op =
      (attributes fields).foldlM (fun op p => fieldAttr isType p.1 op p.2) op := by
  induction fields generalizing op with
  | nil => rfl
  | cons field fields ih =>
      rw [List.foldlM_cons, attributes, List.flatMap_cons, List.foldlM_append, List.foldlM_map]
      simp only [ih]
      rfl

/-- What one attribute of a field does. -/
theorem fieldAttr_eq_ok :
    fieldAttr isType field op attr = .ok op' ↔
      (attr.path = "body" ∧ ∃ body, IsBody isType (field, attr) body ∧
        op' = { op with requestBody := some body, schemas := op.schemas ++ [body.ty] }) ∨
      (attr.path = "param" ∧ ∃ parameter, IsParameter isType (field, attr) parameter ∧
        op' = { op with parameters := op.parameters ++ [parameter] }) ∨
      (attr.path ≠ "body" ∧ attr.path ≠ "param" ∧ op' = op) := by
  by_cases hbody : attr.path = "body"
  · rw [fieldAttr, if_pos hbody]
    simp [-bind_pure_comp, hbody, bind_eq_ok, pure_eq_ok, fieldArgs_eq_ok, foldl_bodyConfig, IsBody]
  by_cases hparam : attr.path = "param"
  · rw [fieldAttr, if_neg hbody, if_pos hparam]
    simp [-bind_pure_comp, hparam, bind_eq_ok, pure_eq_ok, fieldArgs_eq_ok, foldl_paramConfig,
      IsParameter]
  · rw [fieldAttr, if_neg hbody, if_neg hparam]
    simp [hbody, hparam, pure_eq_ok]

theorem fieldAttr_ne_panic : fieldAttr isType field op attr ≠ .error .panic := by
  unfold fieldAttr
  split
  · exact bind_ne_panic fieldArgs_ne_panic nofun
  split
  · exact bind_ne_panic fieldArgs_ne_panic nofun
  · nofun

/-- Bodies and parameters, behind those there are. -/
def Operation.addFields (op : Operation) (bodies : List RequestBody)
    (parameters : List Parameter) : Operation :=
  { op with
    requestBody := bodies.getLast?.or op.requestBody
    schemas := op.schemas ++ bodies.map RequestBody.ty
    parameters := op.parameters ++ parameters }

theorem foldlM_fieldAttr_eq_ok (pairs : List (Field × Attribute)) :
    pairs.foldlM (fun op p => fieldAttr isType p.1 op p.2) op = .ok op' ↔
      ∃ bodies parameters, List.Forall₂ (IsBody isType) (ofName "body" pairs) bodies ∧
        List.Forall₂ (IsParameter isType) (ofName "param" pairs) parameters ∧
        op' = op.addFields bodies parameters := by
  induction pairs generalizing op with
  | nil =>
      simp [ofName, Operation.addFields, pure_eq_ok]
  | cons p pairs ih =>
      obtain ⟨field, attr⟩ := p
      -- a later body replaces an earlier one
      have hor : ∀ (body : RequestBody) bodies, (body :: bodies).getLast?.or op.requestBody =
          bodies.getLast?.or (some body) := by
        intro body bodies
        rw [List.getLast?_cons]
        cases bodies.getLast? <;> rfl
      rw [List.foldlM_cons, bind_eq_ok]
      simp only [ih]
      constructor
      · -- the first attribute is a body, a parameter or neither, and the rest by induction
        rintro ⟨op₁, hop₁, bodies, parameters, hbodies, hparameters, rfl⟩
        obtain ⟨hattr, body, hbody, rfl⟩ | ⟨hattr, parameter, hparameter, rfl⟩ |
          ⟨hbody, hparam, rfl⟩ := fieldAttr_eq_ok.mp hop₁
        · refine ⟨body :: bodies, parameters, ?_, ?_, ?_⟩
          · simpa [ofName, hattr] using ⟨hbody, hbodies⟩
          · simpa [ofName, hattr] using hparameters
          · simp [Operation.addFields, hor]
        · refine ⟨bodies, parameter :: parameters, ?_, ?_, ?_⟩
          · simpa [ofName, hattr] using hbodies
          · simpa [ofName, hattr] using ⟨hparameter, hparameters⟩
          · simp [Operation.addFields]
        · refine ⟨bodies, parameters, ?_, ?_, rfl⟩
          · simpa [ofName, hbody] using hbodies
          · simpa [ofName, hparam] using hparameters
      · rintro ⟨bodies, parameters, hbodies, hparameters, rfl⟩
        by_cases hbody : attr.path = "body"
        · simp only [ofName, hbody, List.filter_cons, decide_true, if_true,
            List.forall₂_cons_left_iff] at hbodies hparameters
          obtain ⟨body, bodies, hattr, hbodies, rfl⟩ := hbodies
          refine ⟨_, fieldAttr_eq_ok.mpr (.inl ⟨hbody, body, hattr, rfl⟩), bodies, parameters,
            hbodies, hparameters, ?_⟩
          simp [Operation.addFields, hor]
        by_cases hparam : attr.path = "param"
        · simp only [ofName, hparam, List.filter_cons, decide_true, if_true,
            List.forall₂_cons_left_iff] at hbodies hparameters
          obtain ⟨parameter, parameters, hattr, hparameters, rfl⟩ := hparameters
          refine ⟨_, fieldAttr_eq_ok.mpr (.inr (.inl ⟨hparam, parameter, hattr, rfl⟩)), bodies,
            parameters, hbodies, hparameters, ?_⟩
          simp [Operation.addFields]
        · simp only [ofName, hbody, hparam, List.filter_cons, decide_false, if_false,
            Bool.false_eq_true] at hbodies hparameters
          exact ⟨op, fieldAttr_eq_ok.mpr (.inr (.inr ⟨hbody, hparam, rfl⟩)), bodies, parameters,
            hbodies, hparameters, rfl⟩

/-! ### The loop over the configs -/

/-- The words of the methods are the ones that the macro knows. -/
theorem httpMethod_isSome {method : String} (h : keyword method = .httpMethod) :
    (httpMethod method).isSome = true := by
  unfold keyword at h
  split at h <;> first | rfl | cases h

theorem Spells.httpMethod_isSome {c : Configs} {ts : TokenStream} (h : Spells isType c ts)
    {method : String} (hc : c = .httpMethod method) :
    (Utoipa.httpMethod method).isSome = true := by
  cases h with
  | httpMethod hident =>
      cases hc
      exact Utoipa.httpMethod_isSome hident
  | item hident =>
      unfold keyword at hident
      split at hident <;> cases hident <;> cases hc
  | parameterIn _ | responses _ _ | security _ _ | unknown _ _ => cases hc

/-- Configs, behind those there are. -/
def Operation.addConfigs (op : Operation) (cs : List Configs) : Operation :=
  { op with
    httpMethods := op.httpMethods ++ cs.filterMap Configs.method?
    path := (last Configs.path? cs).or op.path
    summary := (last Configs.summary? cs).or op.summary
    description := (last Configs.description? cs).or op.description
    responses := (last Configs.responses? cs).or op.responses
    securities := op.securities ++ cs.flatMap Configs.securities
    tags := op.tags ++ cs.filterMap Configs.tag? }

theorem Operation.addConfigs_concat (op : Operation) (cs : List Configs) (c : Configs) :
    op.addConfigs (cs ++ [c]) = (op.addConfigs cs).addConfigs [c] := by
  have hlast : ∀ {α : Type} (f : Configs → Option α) (o : Option α),
      (last f (cs ++ [c])).or o = (last f [c]).or ((last f cs).or o) := by
    intro α f o
    rw [last_concat, last_singleton, Option.or_assoc]
  simp only [Operation.addConfigs, hlast, List.filterMap_append, List.flatMap_append,
    List.append_assoc]

/-- What one config of the struct does. -/
theorem structConfig_eq {c : Configs} {ts : TokenStream} (h : Spells isType c ts) :
    structConfig op c = .ok (op.addConfigs [c]) := by
  cases c with
  | httpMethod method =>
      obtain ⟨m, hm⟩ := Option.isSome_iff_exists.mp (h.httpMethod_isSome rfl)
      simp [structConfig, hm, Operation.addConfigs, last, Configs.method?, Configs.path?,
        Configs.summary?, Configs.description?, Configs.responses?, Configs.securities,
        Configs.tag?]
  | _ =>
      simp [structConfig, Operation.addConfigs, last, List.filterMap, Configs.method?,
        Configs.path?, Configs.summary?, Configs.description?, Configs.responses?,
        Configs.securities, Configs.tag?]

theorem foldlM_structConfig (op : Operation) {cs : List Configs}
    (hcs : ∀ c ∈ cs, ∃ ts, Spells isType c ts) :
    cs.foldlM structConfig op = .ok (op.addConfigs cs) := by
  induction cs using List.reverseRecOn with
  | nil => simp [Operation.addConfigs, last, pure, Except.pure]
  | append_singleton cs c ih =>
      obtain ⟨ts, hc⟩ := hcs c (by simp)
      rw [List.foldlM_append, ih fun c hc => hcs c (List.mem_append_left _ hc)]
      show structConfig _ c >>= pure = _
      rw [bind_pure, structConfig_eq hc, Operation.addConfigs_concat]

/-! ### The macro -/

theorem StructHolds.spells {attrs : List Attribute} (h : StructHolds isType attrs cs) :
    ∀ c ∈ cs, ∃ ts, Spells isType c ts := by
  cases attrs with
  | nil =>
      rw [show cs = [] from h]
      nofun
  | cons attr attrs =>
      obtain ⟨ts, -, hts⟩ := h
      exact fun c hc => hts.exists_of_mem hc

theorem structArgs_eq_ok {attrs : List Attribute} :
    structArgs isType attrs = .ok cs ↔ StructHolds isType attrs cs := by
  cases attrs with
  | nil => exact pure_eq_ok
  | cons attr attrs => exact parseArgs_eq_ok

theorem structArgs_ne_panic {attrs : List Attribute} :
    structArgs isType attrs ≠ .error .panic := by
  cases attrs with
  | nil => nofun
  | cons attr attrs => exact parseArgs_ne_panic

theorem foldlM_fieldAttr_ne_panic (pairs : List (Field × Attribute)) :
    pairs.foldlM (fun op p => fieldAttr isType p.1 op p.2) op ≠ .error .panic := by
  induction pairs generalizing op with
  | nil => nofun
  | cons p pairs ih =>
      rw [List.foldlM_cons]
      exact bind_ne_panic fieldAttr_ne_panic fun _ _ => ih

section

variable {attrs : List Attribute} {fields : List Field}

theorem deriveIntoPath_eq :
    deriveIntoPath isType ⟨attrs, some fields⟩ = structArgs isType attrs >>= fun configs =>
      (attributes fields).foldlM (fun op p => fieldAttr isType p.1 op p.2) {} >>=
        configs.foldlM structConfig := by
  rw [← foldlM_fieldAttrs]
  rfl

theorem deriveIntoPath_eq_ok :
    deriveIntoPath isType ⟨attrs, some fields⟩ = .ok op ↔
      Describes isType ⟨attrs, some fields⟩ op := by
  rw [deriveIntoPath_eq]
  simp only [bind_eq_ok, structArgs_eq_ok, foldlM_fieldAttr_eq_ok]
  constructor
  · rintro ⟨cs, hcs, _, ⟨bodies, parameters, hbodies, hparameters, rfl⟩, hop⟩
    rw [foldlM_structConfig _ hcs.spells] at hop
    obtain rfl := Except.ok.inj hop
    have hdescribes := Describes.mk hcs hbodies hparameters
    simpa [Operation.addConfigs, Operation.addFields] using hdescribes
  · rintro ⟨hcs, hbodies, hparameters⟩
    refine ⟨_, hcs, _, ⟨_, _, hbodies, hparameters, rfl⟩, ?_⟩
    rw [foldlM_structConfig _ hcs.spells]
    simp [Operation.addConfigs, Operation.addFields]

theorem deriveIntoPath_ne_panic :
    deriveIntoPath isType ⟨attrs, some fields⟩ ≠ .error .panic := by
  rw [deriveIntoPath_eq]
  refine bind_ne_panic structArgs_ne_panic fun cs hcs =>
    bind_ne_panic (foldlM_fieldAttr_ne_panic _) fun op _ => ?_
  rw [foldlM_structConfig _ (structArgs_eq_ok.mp hcs).spells]
  nofun

end

/-- **The macro** generates an operation exactly if the struct describes one, and
then this one; otherwise there is an error at compile time, never a panic. -/
theorem deriveIntoPath_iff (isType : TokenStream → Bool) (ast : ItemStruct) :
    (∀ op, deriveIntoPath isType ast = .ok op ↔ Describes isType ast op) ∧
      deriveIntoPath isType ast ≠ .error .panic := by
  obtain ⟨attrs, fields⟩ := ast
  cases fields with
  | none => exact ⟨fun op => iff_of_false nofun nofun, nofun⟩
  | some fields => exact ⟨fun op => deriveIntoPath_eq_ok, deriveIntoPath_ne_panic⟩

end

end Utoipa

end Lockinspiel
