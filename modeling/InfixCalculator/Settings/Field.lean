import InfixCalculator.Settings.Coercion

/-!
# Settings from raw values

Raw values are given for some of the fields, and perhaps for fields that there are not. Every field is
read on its own. If all can be read and no field is unknown, the settings consist of the values read,
with the defaults for the fields that were not given; otherwise every field that cannot be read is
reported, in the order of the fields, and after them the unknown ones in the order given.
-/

namespace InfixCalculator.Settings

open Yaml (Value)

/-- A field with what is wrong with it. -/
structure Complaint where
  /-- The name of the field. -/
  field : String
  /-- What is wrong. -/
  violation : Violation
  deriving DecidableEq, Repr

/-- What is wrong with the value of a field, if anything is. -/
def Field.violation? (field : Field) (value : Value) : Option Violation :=
  let verdict : Except Violation Unit :=
    match field with
    | .logLevel => (level value).map fun _ => ()
    | .limit which => (Settings.limit which value).map fun _ => ()
    | .showRpn => (flag value).map fun _ => ()
    | .showTree => (flag value).map fun _ => ()
  match verdict with
  | .ok () => none
  | .error violation => some violation

/-- What was read from a raw value, or the default. -/
def readOr (default : α) (read : Value → Except Violation α) (raw : Option Value) : α :=
  match raw with
  | none => default
  | some value =>
    match read value with
    | .ok a => a
    | .error _ => default

/-- The limits in the raw values. -/
def limitsOf (raw : Field → Option Value) : Limits :=
  let read (which : Limit) : Int :=
    readOr (({} : Limits).bound which) (Settings.limit which) (raw (.limit which))
  ⟨read .expressionLength, read .tokenCount, read .nestingDepth, read .exponent,
   read .integerBits⟩

/-- The settings in the raw values, with the default for what was not given or cannot be read. -/
def tentative (raw : Field → Option Value) : Settings :=
  { logLevel := readOr LogLevel.warning level (raw .logLevel)
    limits := limitsOf raw
    showRpn := readOr false flag (raw .showRpn)
    showTree := readOr false flag (raw .showTree) }

/-- The complaints about the values of fields, in the order of the fields. -/
def complaints (raw : Field → Option Value) : List Complaint :=
  Field.all.filterMap fun field =>
    ((raw field).bind field.violation?).map fun violation => ⟨field.name, violation⟩

/-- The settings in the raw values, or all complaints about them. -/
def ofRaw (raw : Field → Option Value) (strangers : List Complaint) :
    Except (List Complaint) Settings :=
  let all := complaints raw ++ strangers
  if all.isEmpty then .ok (tentative raw) else .error all

/-- The limit of given settings is the one read. -/
theorem bound_limitsOf (raw : Field → Option Value) (which : Limit) :
    (limitsOf raw).bound which =
      readOr (({} : Limits).bound which) (Settings.limit which) (raw (.limit which)) := by
  cases which <;> rfl

/-- Settings are accepted exactly when there is no complaint. -/
theorem ofRaw_eq_ok_iff {raw : Field → Option Value} {strangers : List Complaint} {s : Settings} :
    ofRaw raw strangers = .ok s ↔
      complaints raw = [] ∧ strangers = [] ∧ tentative raw = s := by
  simp only [ofRaw]
  split
  · rename_i h
    simp only [List.isEmpty_iff, List.append_eq_nil_iff] at h
    simp [h.1, h.2]
  · rename_i h
    simp only [List.isEmpty_iff, List.append_eq_nil_iff] at h
    constructor
    · intro hs
      exact absurd hs (by simp)
    · rintro ⟨h1, h2, -⟩
      exact absurd ⟨h1, h2⟩ h

end InfixCalculator.Settings
