/-
Lockinspiel/PathConfigs.lean

The attributes of `utoipa_e2e`: `#[api_path(..)]`, `#[body(..)]` and
`#[param(..)]`.

All three hold a list of configs, which are parsed from the tokens one after the
other.  A config begins with a keyword; what stands behind an unknown one is
skipped up to the next comma.  `Spells` is the grammar of the configs, and the
parser accepts exactly the lists that it derives (`parseConfigs_iff`).

What a type looks like is the parameter `isType`; everything else is a matter of
token trees.  Groups that no source writes, those without a delimiter, are left
out.
-/
import Mathlib.Data.List.TakeWhile
import Mathlib.Tactic.FinCases
import Lockinspiel.Lib.Terminated

namespace Lockinspiel

namespace Utoipa

open Grammar

/-! ### Token trees -/

inductive Delimiter
  | parenthesis | bracket | brace
deriving DecidableEq

inductive TokenTree
  | ident (name : String)
  | punct (char : Char)
  | literal (text : String)
  | group (delimiter : Delimiter) (stream : List TokenTree)

abbrev TokenStream := List TokenTree

/-- `Token![,]`. -/
def TokenTree.isComma : TokenTree → Bool
  | .punct char => char == ','
  | .ident _ | .literal _ | .group .. => false

/-- The words that are no `Ident`. -/
def keywords : List String :=
  ["_", "abstract", "as", "async", "await", "become", "box", "break", "const", "continue", "crate",
    "do", "dyn", "else", "enum", "extern", "false", "final", "fn", "for", "if", "impl", "in", "let",
    "loop", "macro", "match", "mod", "move", "mut", "override", "priv", "pub", "ref", "return",
    "Self", "self", "static", "struct", "super", "trait", "true", "try", "type", "typeof", "unsafe",
    "unsized", "use", "virtual", "where", "while", "yield"]

/-- `input.parse::<TokenTree>()`. -/
def parseTokenTree : Parser TokenTree TokenTree
  | [] => none
  | t :: rest => some (t, rest)

/-- `input.parse::<Ident>()`. -/
def parseIdent : Parser TokenTree String
  | .ident name :: rest => if name ∈ keywords then none else some (name, rest)
  | _ => none

/-- `input.parse::<Token![=]>()`. -/
def parseEq : TokenStream → Option TokenStream
  | .punct char :: rest => if char = '=' then some rest else none
  | _ => none

/-- `parenthesized!`, `bracketed!`: the content of the group. -/
def parseGroup (delimiter : Delimiter) : Parser TokenTree TokenStream
  | .group d content :: rest => if d = delimiter then some (content, rest) else none
  | _ => none

/-! ### Configs -/

/-- The tokens up to a comma. -/
structure ConfigItem where
  tokens : TokenStream
  commaFree : ∀ t ∈ tokens, t.isComma = false

def ConfigItem.parse (ts : TokenStream) : ConfigItem × TokenStream :=
  (⟨ts.takeWhile fun t => !t.isComma, fun t ht => by simpa using List.mem_takeWhile_imp ht⟩,
    ts.dropWhile fun t => !t.isComma)

structure SecurityRequirement where
  name : TokenTree
  scopes : List TokenTree

def SecurityRequirement.parse : Parser TokenTree SecurityRequirement := fun ts => do
  let (name, ts) ← parseTokenTree ts
  let ts ← parseEq ts
  let (content, ts) ← parseGroup .bracket ts
  let scopes ← parseTerminated TokenTree.isComma parseTokenTree content
  return (⟨name, scopes⟩, ts)

abbrev SecurityRequirements := List SecurityRequirement

def SecurityRequirements.parse : Parser TokenTree SecurityRequirements := fun ts => do
  let (content, ts) ← parseGroup .parenthesis ts
  let requirements ← parseTerminated TokenTree.isComma SecurityRequirement.parse content
  return (requirements, ts)

inductive Configs
  | httpMethod (method : String)
  | parameterIn (ident : String)
  | path (item : ConfigItem)
  | tag (item : ConfigItem)
  | summary (item : ConfigItem)
  | description (item : ConfigItem)
  | responses (ty : TokenStream)
  | security (requirements : List SecurityRequirements)
  | contentType (item : ConfigItem)
  | none

/-- What the first word of a config announces. -/
inductive Keyword
  | httpMethod
  /-- `= <item>`. -/
  | item (config : ConfigItem → Configs)
  | responses
  | security
  | parameterIn
  | unknown

/-- The match on `ident_string`. -/
def keyword (identString : String) : Keyword :=
  match identString with
  | "get" | "post" | "put" | "delete" | "options" | "head" | "patch" | "trace" => .httpMethod
  | "path" => .item .path
  | "tag" => .item .tag
  | "summary" => .item .summary
  | "description" => .item .description
  | "content_type" => .item .contentType
  | "responses" => .responses
  | "security" => .security
  | "Query" | "Path" | "Header" | "Cookie" => .parameterIn
  | _ => .unknown

variable (isType : TokenStream → Bool)

/-- What is parsed behind the first word. -/
def Configs.parseAfter (ident : String) : Keyword → Parser TokenTree Configs
  | .httpMethod, ts => some (.httpMethod ident, ts)
  | .item config, ts => do
      let ts ← parseEq ts
      return (config (ConfigItem.parse ts).1, (ConfigItem.parse ts).2)
  | .responses, ts => do
      let (content, ts) ← parseGroup .parenthesis ts
      -- tokens that the type leaves are an error
      if isType content then return (.responses content, ts) else Option.none
  | .security, ts => do
      let (content, ts) ← parseGroup .parenthesis ts
      let requirements ← parseTerminated TokenTree.isComma SecurityRequirements.parse content
      return (.security requirements, ts)
  | .parameterIn, ts => some (.parameterIn ident, ts)
  | .unknown, ts => some (.none, (ConfigItem.parse ts).2)

def Configs.parse : Parser TokenTree Configs := fun ts => do
  let (ident, ts) ← parseIdent ts
  parseAfter isType ident (keyword ident) ts

/-- `CommaDelimetedConfigs`, from all tokens of an attribute. -/
def parseConfigs (ts : TokenStream) : Option (List Configs) :=
  parseTerminated TokenTree.isComma (Configs.parse isType) ts

/-! ### The grammar -/

/-- `name = [scope, ..]`. -/
inductive SpellsRequirement : SecurityRequirement → TokenStream → Prop
  | mk {name scopes content}
      (h : Terminated TokenTree.isComma (fun scope ts => ts = [scope]) scopes content) :
      SpellsRequirement ⟨name, scopes⟩ [name, .punct '=', .group .bracket content]

/-- `(name = [scope, ..], ..)`. -/
inductive SpellsRequirements : SecurityRequirements → TokenStream → Prop
  | mk {requirements content}
      (h : Terminated TokenTree.isComma SpellsRequirement requirements content) :
      SpellsRequirements requirements [.group .parenthesis content]

/-- How a config is written. -/
inductive Spells : Configs → TokenStream → Prop
  | httpMethod {ident} (hident : keyword ident = .httpMethod) :
      Spells (.httpMethod ident) [.ident ident]
  | parameterIn {ident} (hident : keyword ident = .parameterIn) :
      Spells (.parameterIn ident) [.ident ident]
  | item {ident config} {item : ConfigItem} (hident : keyword ident = .item config) :
      Spells (config item) (.ident ident :: .punct '=' :: item.tokens)
  | responses {ident content} (hident : keyword ident = .responses)
      (htype : isType content = true) :
      Spells (.responses content) [.ident ident, .group .parenthesis content]
  | security {ident requirements content} (hident : keyword ident = .security)
      (h : Terminated TokenTree.isComma SpellsRequirements requirements content) :
      Spells (.security requirements) [.ident ident, .group .parenthesis content]
  | unknown {ident} {item : ConfigItem} (hident : keyword ident = .unknown)
      (hword : ident ∉ keywords) : Spells .none (.ident ident :: item.tokens)

/-! ### The parsers read the grammar -/

section

variable {isType} {ts rest : TokenStream}

theorem parseIdent_eq_some {name : String} :
    parseIdent ts = some (name, rest) ↔ ts = .ident name :: rest ∧ name ∉ keywords := by
  unfold parseIdent
  split
  · split
    · simp only [reduceCtorEq, List.cons.injEq, TokenTree.ident.injEq, false_iff, not_and, not_not]
      rintro ⟨rfl, -⟩
      assumption
    · simp only [Option.some.injEq, Prod.mk.injEq, List.cons.injEq, TokenTree.ident.injEq]
      refine ⟨?_, And.left⟩
      rintro ⟨rfl, rfl⟩
      exact ⟨⟨rfl, rfl⟩, ‹_›⟩
  · rename_i hno
    simp only [reduceCtorEq, false_iff, not_and]
    intro h
    exact absurd h (hno _ _)

theorem parseEq_eq_some : parseEq ts = some rest ↔ ts = .punct '=' :: rest := by
  unfold parseEq
  split
  · split
    · next h => simp [h]
    · next h => simp [h]
  · rename_i hno
    simp only [reduceCtorEq, false_iff]
    exact hno _ _

theorem parseGroup_eq_some {delimiter : Delimiter} {content : TokenStream} :
    parseGroup delimiter ts = some (content, rest) ↔ ts = .group delimiter content :: rest := by
  unfold parseGroup
  split
  · split
    · next h => simp [h]
    · next h => simp [h]
  · rename_i hno
    simp only [reduceCtorEq, false_iff]
    exact hno _ _ _

theorem reads_tokenTree :
    Reads TokenTree.isComma parseTokenTree (fun (t : TokenTree) ts => ts = [t]) where
  ne_nil h := by simp [h]
  sound {ts a rest} h := by
    cases ts with
    | nil => cases h
    | cons t ts =>
        obtain ⟨rfl, rfl⟩ := Prod.mk.inj (Option.some.inj h)
        exact ⟨[t], rfl, rfl⟩
  complete h _ := by rw [h]; rfl

theorem SecurityRequirement.parse_eq_some {r : SecurityRequirement} :
    SecurityRequirement.parse ts = some (r, rest) ↔
      ∃ content, ts = r.name :: .punct '=' :: .group .bracket content :: rest ∧
        Terminated TokenTree.isComma (fun t ts => ts = [t]) r.scopes content := by
  constructor
  · intro h
    obtain ⟨⟨name, ts₁⟩, hname, h⟩ := Option.bind_eq_some_iff.mp h
    obtain ⟨ts₂, heq, h⟩ := Option.bind_eq_some_iff.mp h
    obtain ⟨⟨content, ts₃⟩, hgroup, h⟩ := Option.bind_eq_some_iff.mp h
    obtain ⟨scopes, hscopes, h⟩ := Option.bind_eq_some_iff.mp h
    obtain ⟨rfl, rfl⟩ := Prod.mk.inj (Option.some.inj h)
    obtain ⟨front, rfl, rfl⟩ := reads_tokenTree.sound hname
    obtain rfl := parseEq_eq_some.mp heq
    obtain rfl := parseGroup_eq_some.mp hgroup
    exact ⟨content, rfl, (parseTerminated_iff reads_tokenTree _ _).mp hscopes⟩
  · rintro ⟨content, rfl, h⟩
    have hscopes := (parseTerminated_iff reads_tokenTree content r.scopes).mpr h
    rw [SecurityRequirement.parse, parseTokenTree, Option.bind_eq_bind, Option.bind_some]
    simp only [parseEq_eq_some.mpr rfl, parseGroup_eq_some.mpr rfl, hscopes, Option.bind_eq_bind,
      Option.bind_some]
    rfl

theorem reads_requirement :
    Reads TokenTree.isComma SecurityRequirement.parse SpellsRequirement where
  ne_nil h := by
    cases h
    exact List.cons_ne_nil _ _
  sound h := by
    obtain ⟨content, rfl, hscopes⟩ := SecurityRequirement.parse_eq_some.mp h
    exact ⟨_, rfl, .mk hscopes⟩
  complete h _ := by
    cases h with
    | mk hscopes => exact SecurityRequirement.parse_eq_some.mpr ⟨_, rfl, hscopes⟩

theorem SecurityRequirements.parse_eq_some {r : SecurityRequirements} :
    SecurityRequirements.parse ts = some (r, rest) ↔
      ∃ content, ts = .group .parenthesis content :: rest ∧
        Terminated TokenTree.isComma SpellsRequirement r content := by
  constructor
  · intro h
    obtain ⟨⟨content, ts₁⟩, hgroup, h⟩ := Option.bind_eq_some_iff.mp h
    obtain ⟨requirements, hrequirements, h⟩ := Option.bind_eq_some_iff.mp h
    obtain ⟨rfl, rfl⟩ := Prod.mk.inj (Option.some.inj h)
    obtain rfl := parseGroup_eq_some.mp hgroup
    exact ⟨content, rfl, (parseTerminated_iff reads_requirement _ _).mp hrequirements⟩
  · rintro ⟨content, rfl, h⟩
    have hrequirements := (parseTerminated_iff reads_requirement content r).mpr h
    simp only [SecurityRequirements.parse, parseGroup_eq_some.mpr rfl, hrequirements,
      Option.bind_eq_bind, Option.bind_some]
    rfl

theorem reads_requirements :
    Reads TokenTree.isComma SecurityRequirements.parse SpellsRequirements where
  ne_nil h := by
    cases h
    exact List.cons_ne_nil _ _
  sound h := by
    obtain ⟨content, rfl, hrequirements⟩ := SecurityRequirements.parse_eq_some.mp h
    exact ⟨_, rfl, .mk hrequirements⟩
  complete h _ := by
    cases h with
    | mk hrequirements => exact SecurityRequirements.parse_eq_some.mpr ⟨_, rfl, hrequirements⟩

/-- An item is the tokens up to a comma, and what follows it is a comma or
nothing. -/
theorem ConfigItem.tokens_parse (ts : TokenStream) :
    ts = (ConfigItem.parse ts).1.tokens ++ (ConfigItem.parse ts).2 :=
  List.takeWhile_append_dropWhile.symm

theorem ConfigItem.parse_append (item : ConfigItem)
    (hrest : ∀ t ∈ rest.head?, t.isComma = true) :
    ConfigItem.parse (item.tokens ++ rest) = (item, rest) := by
  obtain ⟨tokens, hcomma⟩ := item
  have hall : ∀ t ∈ tokens, (!t.isComma) = true := fun t ht => by rw [hcomma t ht]; rfl
  have hstop : rest.takeWhile (fun t => !t.isComma) = [] ∧
      rest.dropWhile (fun t => !t.isComma) = rest := by
    cases rest with
    | nil => exact ⟨rfl, rfl⟩
    | cons t rest =>
        have ht : t.isComma = true := hrest t rfl
        simp [ht]
  simp only [ConfigItem.parse, Prod.mk.injEq, ConfigItem.mk.injEq]
  rw [List.takeWhile_append_of_pos hall, List.dropWhile_append_of_pos hall, hstop.1, hstop.2,
    List.append_nil]
  exact ⟨rfl, rfl⟩

/-- No word that announces something is a keyword of the language. -/
theorem keyword_of_mem : ∀ word ∈ keywords, keyword word = .unknown := by
  intro word hword
  fin_cases hword <;> rfl

/-- What stands behind the first word, by what the word announces. -/
theorem Configs.parseAfter_eq_some {ident : String} {a : Configs} (hword : ident ∉ keywords) :
    Configs.parseAfter isType ident (keyword ident) ts = some (a, rest) →
      ∃ front, ts = front ++ rest ∧ Spells isType a (.ident ident :: front) := by
  cases hkeyword : keyword ident with
  | httpMethod =>
      intro h
      obtain ⟨rfl, rfl⟩ := Prod.mk.inj (Option.some.inj h)
      exact ⟨[], rfl, .httpMethod hkeyword⟩
  | parameterIn =>
      intro h
      obtain ⟨rfl, rfl⟩ := Prod.mk.inj (Option.some.inj h)
      exact ⟨[], rfl, .parameterIn hkeyword⟩
  | item config =>
      intro h
      obtain ⟨ts₁, heq, h⟩ := Option.bind_eq_some_iff.mp h
      obtain ⟨rfl, rfl⟩ := Prod.mk.inj (Option.some.inj h)
      refine ⟨_, ?_, .item hkeyword⟩
      rw [List.cons_append, ← ConfigItem.tokens_parse]
      exact parseEq_eq_some.mp heq
  | responses =>
      intro h
      obtain ⟨⟨content, ts₁⟩, hgroup, hcontent⟩ := Option.bind_eq_some_iff.mp h
      obtain rfl := parseGroup_eq_some.mp hgroup
      dsimp only at hcontent
      split at hcontent
      · obtain ⟨rfl, rfl⟩ := Prod.mk.inj (Option.some.inj hcontent)
        exact ⟨_, rfl, .responses hkeyword ‹_›⟩
      · cases hcontent
  | security =>
      intro h
      obtain ⟨⟨content, ts₁⟩, hgroup, h⟩ := Option.bind_eq_some_iff.mp h
      obtain ⟨requirements, hrequirements, h⟩ := Option.bind_eq_some_iff.mp h
      obtain ⟨rfl, rfl⟩ := Prod.mk.inj (Option.some.inj h)
      obtain rfl := parseGroup_eq_some.mp hgroup
      have hall := (parseTerminated_iff reads_requirements _ _).mp hrequirements
      exact ⟨_, rfl, .security hkeyword hall⟩
  | unknown =>
      intro h
      obtain ⟨rfl, rfl⟩ := Prod.mk.inj (Option.some.inj h)
      exact ⟨_, ConfigItem.tokens_parse ts, .unknown hkeyword hword⟩

theorem reads_configs : Reads TokenTree.isComma (Configs.parse isType) (Spells isType) where
  ne_nil h := by
    cases h <;> exact List.cons_ne_nil _ _
  sound h := by
    obtain ⟨⟨ident, ts₁⟩, hident, hafter⟩ := Option.bind_eq_some_iff.mp h
    obtain ⟨rfl, hword⟩ := parseIdent_eq_some.mp hident
    obtain ⟨front, rfl, hspells⟩ := Configs.parseAfter_eq_some hword hafter
    exact ⟨_, rfl, hspells⟩
  complete {a front rest} h hrest := by
    have hparse : ∀ {ident ts}, ident ∉ keywords → Configs.parse isType (.ident ident :: ts) =
        Configs.parseAfter isType ident (keyword ident) ts := by
      intro ident ts hword
      rw [Configs.parse, parseIdent_eq_some.mpr ⟨rfl, hword⟩]
      rfl
    have hknown : ∀ {ident}, keyword ident ≠ .unknown → ident ∉ keywords :=
      fun hne hword => hne (keyword_of_mem _ hword)
    cases h with
    | httpMethod hident | parameterIn hident =>
        rw [List.cons_append, hparse (hknown (by rw [hident]; nofun)), hident]
        rfl
    | item hident =>
        rw [List.cons_append, hparse (hknown (by rw [hident]; nofun)), hident,
          Configs.parseAfter, List.cons_append, parseEq_eq_some.mpr rfl]
        show some _ = _
        rw [ConfigItem.parse_append _ hrest]
    | responses hident htype =>
        rw [List.cons_append, hparse (hknown (by rw [hident]; nofun)), hident,
          Configs.parseAfter, List.cons_append, parseGroup_eq_some.mpr rfl]
        exact if_pos htype
    | security hident hall =>
        rw [List.cons_append, hparse (hknown (by rw [hident]; nofun)), hident,
          Configs.parseAfter, List.cons_append, parseGroup_eq_some.mpr rfl]
        show (parseTerminated _ _ _ >>= _) = _
        rw [(parseTerminated_iff reads_requirements _ _).mpr hall]
        rfl
    | unknown hident hword =>
        rw [List.cons_append, hparse hword, hident, Configs.parseAfter,
          ConfigItem.parse_append _ hrest]

/-- **The attributes that are accepted** are exactly those that the grammar of
the configs derives, with or without a comma behind the last one, and they are
parsed as what they spell. -/
theorem parseConfigs_iff (isType : TokenStream → Bool) (ts : TokenStream) (cs : List Configs) :
    parseConfigs isType ts = some cs ↔ Terminated TokenTree.isComma (Spells isType) cs ts :=
  parseTerminated_iff reads_configs ts cs

end

end Utoipa

end Lockinspiel
