import GuardedExpr.Decimal.Numeral
import GuardedExpr.Text.Blank

/-!
# Settings

Every limit of an engine has a default. A text of settings overrides limits one line at a
time, `name = value`; blank lines and lines that start with `;` or `#` say nothing. Lines
that are wrong are reported with their number and change nothing.
-/

namespace GuardedExpr

inductive Setting where
  | maxExpressionLength
  | maxTokens
  | maxEvalDepth
  | cacheCapacity
  | rateLimit
  | rateWindow
  | maxTemplateLength
  | maxSubstitutions
deriving DecidableEq, Repr

namespace Setting

def all : List Setting :=
  [.maxExpressionLength, .maxTokens, .maxEvalDepth, .cacheCapacity, .rateLimit, .rateWindow,
   .maxTemplateLength, .maxSubstitutions]

def name : Setting → String
  | .maxExpressionLength => "max_expression_length"
  | .maxTokens => "max_tokens"
  | .maxEvalDepth => "max_eval_depth"
  | .cacheCapacity => "cache_capacity"
  | .rateLimit => "rate_limit"
  | .rateWindow => "rate_window_ms"
  | .maxTemplateLength => "max_template_length"
  | .maxSubstitutions => "max_substitutions"

def ofName? (name : String) : Option Setting :=
  all.find? fun setting => setting.name == name

theorem ofName?_name (setting : Setting) : ofName? setting.name = some setting := by
  cases setting <;> decide

end Setting

structure Settings where
  maxExpressionLength : Nat := 10000
  maxTokens : Nat := 1000
  maxEvalDepth : Nat := 100
  cacheCapacity : Nat := 100
  rateLimit : Nat := 1000
  /-- The length of the window, in milliseconds. -/
  rateWindow : Nat := 1000
  maxTemplateLength : Nat := 10000
  maxSubstitutions : Nat := 50
deriving DecidableEq, Repr

inductive SettingFault where
  | notAssignment (line : String)
  | unknown (name : String)
  | notNatural (name value : String)
deriving DecidableEq, Repr

def SettingFault.message : SettingFault → String
  | .notAssignment line => "expected `name = value`, got `" ++ line ++ "`"
  | .unknown name => "unknown setting `" ++ name ++ "`"
  | .notNatural name value =>
    "`" ++ name ++ "` needs a non-negative integer, got `" ++ value ++ "`"

/-- A line of a text of settings that was refused. -/
structure LineFault where
  /-- The number of the line, counted from one. -/
  line : Nat
  cause : SettingFault
deriving DecidableEq, Repr

def LineFault.message (fault : LineFault) : String :=
  "line " ++ toString fault.line ++ ": " ++ fault.cause.message

/-- Why a file of settings cannot be read at all. -/
inductive FileFault where
  | notFound
  | invalidData
deriving DecidableEq, Repr

/-- Setting limits changes settings in place, also where it fails. -/
abbrev SettingsM := ExceptT SettingFault (StateM Settings)

namespace Settings

def value (settings : Settings) : Setting → Nat
  | .maxExpressionLength => settings.maxExpressionLength
  | .maxTokens => settings.maxTokens
  | .maxEvalDepth => settings.maxEvalDepth
  | .cacheCapacity => settings.cacheCapacity
  | .rateLimit => settings.rateLimit
  | .rateWindow => settings.rateWindow
  | .maxTemplateLength => settings.maxTemplateLength
  | .maxSubstitutions => settings.maxSubstitutions

def update (settings : Settings) (n : Nat) : Setting → Settings
  | .maxExpressionLength => { settings with maxExpressionLength := n }
  | .maxTokens => { settings with maxTokens := n }
  | .maxEvalDepth => { settings with maxEvalDepth := n }
  | .cacheCapacity => { settings with cacheCapacity := n }
  | .rateLimit => { settings with rateLimit := n }
  | .rateWindow => { settings with rateWindow := n }
  | .maxTemplateLength => { settings with maxTemplateLength := n }
  | .maxSubstitutions => { settings with maxSubstitutions := n }

theorem value_update (settings : Settings) (n : Nat) (changed asked : Setting) :
    (settings.update n changed).value asked =
      if asked = changed then n else settings.value asked := by
  cases changed <;> cases asked <;> rfl

/-- Sets a limit by its name. -/
def assign (name value : String) : SettingsM Unit :=
  match Setting.ofName? name with
  | none => throw (.unknown name)
  | some setting =>
    match readNatural? value.toList with
    | none => throw (.notNatural name value)
    | some n => modify fun settings => settings.update n setting

/-- The settings after one limit is set, if it can be. -/
def set (settings : Settings) (name value : String) : Except SettingFault Settings :=
  match assign name value settings with
  | (.ok (), changed) => .ok changed
  | (.error cause, _) => .error cause

def linesOf : List Char → List (List Char)
  | [] => [[]]
  | '\n' :: text => [] :: linesOf text
  | c :: text =>
    match linesOf text with
    | [] => [[c]]
    | line :: lines => (c :: line) :: lines

/-- Whether a trimmed line says nothing. -/
def isIgnored (line : List Char) : Bool :=
  line.isEmpty || line.head? == some ';' || line.head? == some '#'

/-- Applies a trimmed line that says something. -/
def applyLine (line : List Char) : SettingsM Unit :=
  if line.contains '=' then
    let name := trim (line.takeWhile (· != '='))
    let value := trim ((line.dropWhile (· != '=')).drop 1)
    assign (String.ofList name) (String.ofList value)
  else throw (.notAssignment (String.ofList line))

/-- Applies lines one after the other, the first of them with the given number, and gives
those that were refused. -/
def applyLines : Nat → List (List Char) → StateM Settings (List LineFault)
  | _, [] => return []
  | number, line :: lines => do
    if isIgnored (trim line) then applyLines (number + 1) lines
    else
      match ← (applyLine (trim line)).run with
      | .ok () => applyLines (number + 1) lines
      | .error cause =>
        let faults ← applyLines (number + 1) lines
        return ⟨number, cause⟩ :: faults

/-- The settings that a text gives, and the lines of it that were refused. -/
def ofText (text : String) : Settings × List LineFault :=
  (applyLines 1 (linesOf text.toList) {}).swap

/-- The settings that a file gives. There may be no file, and it may not be UTF-8. -/
def ofFile (contents : Option ByteArray) : Except FileFault (Settings × List LineFault) :=
  match contents with
  | none => .error .notFound
  | some bytes =>
    match String.fromUTF8? bytes with
    | none => .error .invalidData
    | some text => .ok (ofText text)

end Settings

end GuardedExpr
