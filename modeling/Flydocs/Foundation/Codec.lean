import Mathlib.Data.List.Basic
import Flydocs.Foundation.JsonValue

/-!
# JSON codecs

A codec dumps a value and reads it back; `valid` says which values survive the
trip, so that a reader may check what the type of the value does not say.
-/

namespace Flydocs.Foundation

structure Codec (Value : Type*) where
  dump : Value → JsonValue
  validate : JsonValue → Option Value
  valid : Value → Prop
  validate_dump : ∀ {value}, valid value → validate (dump value) = some value

namespace Codec

variable {Value : Type*}

/-! ## Nullable values -/

def nullable (codec : Codec Value)
    (hnull : ∀ value, codec.valid value → codec.dump value ≠ .null) :
    Codec (Option Value) where
  dump
    | none => .null
    | some value => codec.dump value
  validate
    | .null => some none
    | json => (codec.validate json).map some
  valid value := ∀ inner, value = some inner → codec.valid inner
  validate_dump := by
    intro value hvalid
    cases value with
    | none => rfl
    | some inner =>
        have hinner := hvalid inner rfl
        have hdump := hnull inner hinner
        split
        · contradiction
        · simp [codec.validate_dump hinner]

/-! ## Lists -/

def validateList (codec : Codec Value) :
    List JsonValue → Option (List Value)
  | [] => some []
  | json :: rest => do
      let value ← codec.validate json
      let values ← validateList codec rest
      some (value :: values)

theorem validateList_map_dump (codec : Codec Value) {values : List Value}
    (hvalid : ∀ value ∈ values, codec.valid value) :
    validateList codec (values.map codec.dump) = some values := by
  induction values with
  | nil => rfl
  | cons value values ih =>
      have hhead := codec.validate_dump (hvalid value (by simp))
      have htail := ih fun other hother => hvalid other (by simp [hother])
      simp [validateList, hhead, htail]

def list (codec : Codec Value) : Codec (List Value) where
  dump values := .arr (values.map codec.dump)
  validate
    | .arr items => validateList codec items
    | _ => none
  valid values := ∀ value ∈ values, codec.valid value
  validate_dump := codec.validateList_map_dump

/-! ## Members of an object -/

def required (codec : Codec Value) (key : String)
    (members : JsonValue.Members) : Option Value :=
  (JsonValue.lookup key members).bind codec.validate

def withDefault (codec : Codec Value) (default : Value) (key : String)
    (members : JsonValue.Members) : Option Value :=
  match JsonValue.lookup key members with
  | none => some default
  | some json => codec.validate json

/-- An object with no other members than the allowed ones. -/
def closedObject (allowed : List String)
    (read : JsonValue.Members → Option Value) : JsonValue → Option Value
  | .obj members =>
      if JsonValue.onlyKeys allowed members then read members else none
  | _ => none

theorem closedObject_obj {allowed : List String}
    {read : JsonValue.Members → Option Value} {members : JsonValue.Members}
    (hkeys : JsonValue.onlyKeys allowed members = true) :
    closedObject allowed read (.obj members) = read members :=
  if_pos hkeys

/-! ## Enumerations -/

/-- One string for each constant, listed in `all`. -/
def enumeration [DecidableEq Value] (all : List Value) (name : Value → String)
    (hall : ∀ value, all.find? (fun other => name other = name value) =
      some value) : Codec Value where
  dump value := .str (name value)
  validate
    | .str text => all.find? fun other => name other = text
    | _ => none
  valid _ := True
  validate_dump := fun _ => hall _

theorem closedObject_eq_some {allowed : List String}
    {read : JsonValue.Members → Option Value} {json : JsonValue} {value : Value}
    (h : closedObject allowed read json = some value) :
    ∃ members, json = .obj members ∧ read members = some value := by
  cases json with
  | obj members =>
      simp only [closedObject, Option.ite_none_right_eq_some] at h
      exact ⟨members, rfl, h.2⟩
  | _ => simp [closedObject] at h

/-! ## Constrained values and dictionaries -/

def checked (codec : Codec Value) (Property : Value → Prop)
    [DecidablePred Property] : Codec { value // Property value } where
  dump value := codec.dump value.1
  validate json :=
    (codec.validate json).bind fun value =>
      if h : Property value then some ⟨value, h⟩ else none
  valid value := codec.valid value.1
  validate_dump := by
    rintro ⟨value, hproperty⟩ hvalid
    simp [codec.validate_dump hvalid, hproperty]

def natural (codec : Codec Int) : Codec Nat where
  dump number := codec.dump number
  validate json :=
    (codec.validate json).bind fun number =>
      if 0 ≤ number then some number.toNat else none
  valid number := codec.valid (number : Int)
  validate_dump := by
    intro number hvalid
    simp [codec.validate_dump hvalid]

def validateDict (codec : Codec Value) :
    JsonValue.Members → Option (List (String × Value))
  | [] => some []
  | (key, json) :: rest => do
      let value ← codec.validate json
      let values ← validateDict codec rest
      some ((key, value) :: values)

def dict (codec : Codec Value) : Codec (List (String × Value)) where
  dump entries := .obj (entries.map fun entry => (entry.1, codec.dump entry.2))
  validate
    | .obj members => validateDict codec members
    | _ => none
  valid entries := ∀ entry ∈ entries, codec.valid entry.2
  validate_dump := by
    intro entries hvalid
    induction entries with
    | nil => rfl
    | cons entry entries ih =>
        have hhead := codec.validate_dump (hvalid entry (by simp))
        have htail := ih fun other hother => hvalid other (by simp [hother])
        simp only at htail
        simp [validateDict, hhead, htail]

/-! ## Codecs of which every value survives -/

class Lossless (codec : Codec Value) : Prop where
  valid : ∀ value, codec.valid value

@[simp] theorem validate_dump_of_lossless (codec : Codec Value)
    [codec.Lossless] (value : Value) :
    codec.validate (codec.dump value) = some value :=
  codec.validate_dump (Lossless.valid value)

instance lossless_nullable (codec : Codec Value) [codec.Lossless]
    (hnull : ∀ value, codec.valid value → codec.dump value ≠ .null) :
    (codec.nullable hnull).Lossless :=
  ⟨fun _ value _ => Lossless.valid value⟩

instance lossless_list (codec : Codec Value) [codec.Lossless] :
    codec.list.Lossless :=
  ⟨fun _ value _ => Lossless.valid value⟩

instance lossless_checked (codec : Codec Value) [codec.Lossless]
    (Property : Value → Prop) [DecidablePred Property] :
    (codec.checked Property).Lossless :=
  ⟨fun value => Lossless.valid value.1⟩

instance lossless_natural (codec : Codec Int) [codec.Lossless] :
    codec.natural.Lossless :=
  ⟨fun number => Lossless.valid (number : Int)⟩

instance lossless_dict (codec : Codec Value) [codec.Lossless] :
    codec.dict.Lossless :=
  ⟨fun _ entry _ => Lossless.valid entry.2⟩

instance lossless_enumeration [DecidableEq Value] (all : List Value)
    (name : Value → String)
    (hall : ∀ value, all.find? (fun other => name other = name value) =
      some value) : (Codec.enumeration all name hall).Lossless :=
  ⟨fun _ => trivial⟩

end Codec

end Flydocs.Foundation
