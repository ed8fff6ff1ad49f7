import LayeredScope.Binary64.Layout
import LayeredScope.World

/-!
# Text for diagnostics

The second form of text, beside that for readers: every constructor and every field is named.

* `Failure.inspect`, `Block.inspect`, `Settings.inspect` — of causes, of blocks and of settings.
* `World.inspectValue`, `World.inspectStack` — of values and of stacks, with what stands behind
  the identities. An occurrence of a mapping inside its own text is cut, but nothing else is, and
  a stack that is closed off can come to hold the bundle that reads it; hence the explicit fuel,
  and no text when it is used up.
-/

namespace LayeredScope

namespace Diagnostic

/-- One character of quoted text. -/
def escape (c : Char) : String :=
  if c = '"' then "\\\""
  else if c = '\\' then "\\\\"
  else if c = '\n' then "\\n"
  else if c = '\t' then "\\t"
  else if c = '\r' then "\\r"
  else if c = '\x00' then "\\0"
  else if c.toNat < 0x20 ∨ c.toNat = 0x7f then
    "\\u\x7b" ++ String.ofList (Nat.toDigits 16 c.toNat) ++ "\x7d"
  else String.singleton c

/-- Text in quotes. -/
def quoted (s : String) : String := "\"" ++ String.join (s.toList.map escape) ++ "\""

/-- A constructor with one argument. -/
def tuple (name argument : String) : String := name ++ "(" ++ argument ++ ")"

def sequence (items : List String) : String := "[" ++ ", ".intercalate items ++ "]"

/-- Items in braces, as in a set. -/
def braced (items : List String) : String := "\x7b" ++ ", ".intercalate items ++ "\x7d"

/-- Named fields; `tail` stands for fields that are not shown. -/
def labelledWith (name : String) (fields : List (String × String)) (tail : List String) :
    String :=
  name ++ " \x7b " ++ ", ".intercalate (fields.map (fun f => f.1 ++ ": " ++ f.2) ++ tail) ++
    " \x7d"

/-- Named fields. -/
def labelled (name : String) (fields : List (String × String)) : String :=
  labelledWith name fields []

def optional : Option String → String
  | none => "None"
  | some x => tuple "Some" x

end Diagnostic

open Diagnostic

/-- The diagnostic text of a cause. -/
def Failure.inspect (e : Failure) : String :=
  labelled e.kind <| match e with
    | .missingKey key => [("key", quoted key)]
    | .attributeNotFound typeName name => [("type_name", quoted typeName), ("name", quoted name)]
    | .underflow requested depth =>
      [("requested", toString requested), ("depth", toString depth)]
    | .unsupportedOperation operation => [("operation", quoted operation)]
    | .typeMismatch expected got => [("expected", quoted expected), ("got", quoted got)]
    | .policyDenial name reason => [("name", quoted name), ("reason", quoted reason)]
    | .invocationFailure callee message => [("callee", quoted callee), ("message", quoted message)]
    | .recursionLimit limit => [("limit", toString limit)]

section

variable {κ σ : Type}

def Expr.inspect : Expr κ → String
  | .name n => tuple "Name" (quoted n)
  | .code _ => "Eval(..)"

mutual

/-- The diagnostic text of a block. -/
def Block.inspect : Block κ → String
  | .text s => tuple "Text" (quoted s)
  | .insert value => tuple "Var" value.inspect
  | .choose branches otherwise =>
    labelled "If" [("branches", sequence (Block.inspectBranches branches)),
      ("otherwise", Block.inspectOtherwise otherwise)]
  | .code _ => "Eval(..)"

def Block.inspectAll : List (Block κ) → List String
  | [] => []
  | b :: rest => b.inspect :: Block.inspectAll rest

def Block.inspectBranches : List (Expr κ × List (Block κ)) → List String
  | [] => []
  | (condition, body) :: rest =>
    ("(" ++ condition.inspect ++ ", " ++ sequence (Block.inspectAll body) ++ ")") ::
      Block.inspectBranches rest

def Block.inspectOtherwise : Option (List (Block κ)) → String
  | none => "None"
  | some body => tuple "Some" (sequence (Block.inspectAll body))

end

def Accessor.inspect : Accessor κ → String
  | .deny names => labelled "DenyNames" [("denied", braced (names.keys.map quoted))]
  | .custom _ => "FnAccessor"

def Reserved.inspect (r : Reserved) : String :=
  labelled "ViewConfig" [("private_prefix", optional (r.hiddenPrefix.map quoted)),
    ("string_form_key", quoted r.textKey)]

/-- The diagnostic text of settings. -/
def Settings.inspect (b : Settings κ) : String :=
  labelled "NamespaceBuilder" [("accessor", optional (b.accessor.map Accessor.inspect)),
    ("view_config", b.reserved.inspect), ("level", toString b.level)]

namespace World

/-- Named contents in braces. -/
def inspectEntries (inspect : Value → Option String) (entries : Entries Value) : Option String := do
  let items ← entries.toList.mapM fun (key, v) => do
    let text ← inspect v
    return quoted key ++ ": " ++ text
  return braced items

mutual

/-- The diagnostic text of a value inside open mappings. -/
def inspectValue (w : World κ σ) : Nat → List MapId → Value → Option String
  | 0, _, _ => none
  | fuel + 1, opened, v =>
    match v with
    | .none => some "None"
    | .bool b => some (tuple "Bool" (if b then "true" else "false"))
    | .int n => some (tuple "Int" (toString n))
    | .float x => some (tuple "Float" (Binary64.Layout.diagnostic.write x))
    | .str s => some (tuple "Str" (quoted s))
    | .list items => do
      let items ← items.mapM (fun v => inspectValue w fuel opened v)
      return tuple "List" (sequence items)
    | .map m => return tuple "Map" (← inspectMap w fuel opened m)
    | .object id => return tuple "Object" (← inspectObject w fuel opened id)
    | .function id => some (tuple "Function" (tuple "NativeFunction" (quoted (w.functionName id))))

/-- The diagnostic text of a mapping. -/
def inspectMap (w : World κ σ) : Nat → List MapId → MapId → Option String
  | 0, _, _ => none
  | fuel + 1, opened, m =>
    if m ∈ opened then some "\x7b...\x7d"
    else do
      let entries ← inspectEntries (fun v => inspectValue w fuel (m :: opened) v) (w.entries m)
      return tuple "ScopeMap" entries

/-- The diagnostic text of an object. -/
def inspectObject (w : World κ σ) : Nat → List MapId → ObjectId → Option String
  | 0, _, _ => none
  | fuel + 1, opened, id =>
    match w.object id with
    | .host h => some h.diagnostic
    | .view v => do
      let target ← inspectValue w fuel opened v.target
      return labelledWith "SingleScopeView" [("target", target),
        ("guarded", if v.accessor.isSome then "true" else "false"),
        ("cached", toString v.memory.size)] [".."]
    | .bundle (.mapping m) => do
      let target ← inspectMap w fuel opened m
      return labelled "AttributeView" [("target", tuple "Mapping" target)]
    | .bundle (.enclosure e) => do
      let content ← match w.enclosures[e.index]? with
        | some (.idle stack) => inspectStack w fuel opened stack
        | _ => some "<borrowed>"
      return labelled "AttributeView"
        [("target", tuple "Namespace" (labelled "RefCell" [("value", content)]))]
    | .template t => do
      let globals ← inspectMap w fuel opened t.globals
      let vars ← inspectMap w fuel opened t.vars
      return labelled "DocumentTemplate" [("name", quoted t.name),
        ("blocks", sequence (Block.inspectAll t.blocks)), ("globals", globals), ("vars", vars),
        ("config", labelled "RenderConfig" [("max_nesting", toString t.nestingLimit)]),
        ("namespace", t.settings.inspect)]

/-- The diagnostic text of a layer. -/
def inspectLayer (w : World κ σ) : Nat → List MapId → Layer → Option String
  | 0, _, _ => none
  | fuel + 1, opened, layer =>
    match layer with
    | .mapping m => return tuple "Mapping" (← inspectMap w fuel opened m)
    | .object id => return tuple "Object" (← inspectObject w fuel opened id)
    | .sealed v => return tuple "Opaque" (← inspectValue w fuel opened v)

/-- The diagnostic text of a stack, with its oldest layer first. -/
def inspectStack (w : World κ σ) : Nat → List MapId → Stack κ → Option String
  | 0, _, _ => none
  | fuel + 1, opened, s => do
    let sources ← s.layers.reverse.mapM (fun layer => inspectLayer w fuel opened layer)
    let fields ← inspectEntries (fun v => inspectValue w fuel opened v) s.fields
    return labelled "NamespaceStack" [("sources", sequence sources), ("level", toString s.level),
      ("fields", fields), ("accessor", optional (s.accessor.map Accessor.inspect)),
      ("view_config", s.reserved.inspect)]

end

end World

end

end LayeredScope
