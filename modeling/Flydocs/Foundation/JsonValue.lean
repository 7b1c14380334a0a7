import Mathlib.Data.Rat.Defs
import Flydocs.Foundation.Dictionary

/-!
# JSON values

What a JSON document holds once it is parsed.  An object is the list of its
members, as a Python `dict` keeps them; a float is the rational it stands for.
-/

namespace Flydocs.Foundation

inductive JsonValue where
  | null
  | bool (value : Bool)
  | int (value : Int)
  | float (value : Rat)
  | str (value : String)
  | arr (items : List JsonValue)
  | obj (members : List (String × JsonValue))
  deriving Repr, Inhabited

namespace JsonValue

abbrev Members := List (String × JsonValue)

/-! ## Equality -/

mutual

def decEq : (first second : JsonValue) → Decidable (first = second)
  | null, null => isTrue rfl
  | bool first, bool second =>
      decidable_of_iff (first = second) (by simp)
  | int first, int second => decidable_of_iff (first = second) (by simp)
  | float first, float second => decidable_of_iff (first = second) (by simp)
  | str first, str second => decidable_of_iff (first = second) (by simp)
  | arr first, arr second =>
      match decEqItems first second with
      | isTrue h => isTrue (by rw [h])
      | isFalse h => isFalse (by simpa using h)
  | obj first, obj second =>
      match decEqMembers first second with
      | isTrue h => isTrue (by rw [h])
      | isFalse h => isFalse (by simpa using h)
  | null, bool _ | null, int _ | null, float _ | null, str _ | null, arr _
  | null, obj _ | bool _, null | bool _, int _ | bool _, float _
  | bool _, str _ | bool _, arr _ | bool _, obj _ | int _, null
  | int _, bool _ | int _, float _ | int _, str _ | int _, arr _
  | int _, obj _ | float _, null | float _, bool _ | float _, int _
  | float _, str _ | float _, arr _ | float _, obj _ | str _, null
  | str _, bool _ | str _, int _ | str _, float _ | str _, arr _
  | str _, obj _ | arr _, null | arr _, bool _ | arr _, int _
  | arr _, float _ | arr _, str _ | arr _, obj _ | obj _, null
  | obj _, bool _ | obj _, int _ | obj _, float _ | obj _, str _
  | obj _, arr _ => isFalse (by simp)

def decEqItems : (first second : List JsonValue) → Decidable (first = second)
  | [], [] => isTrue rfl
  | [], _ :: _ | _ :: _, [] => isFalse (by simp)
  | first :: firsts, second :: seconds =>
      match decEq first second, decEqItems firsts seconds with
      | isTrue h, isTrue hs => isTrue (by rw [h, hs])
      | isFalse h, _ => isFalse (by simp [h])
      | _, isFalse hs => isFalse (by simp [hs])

def decEqMembers :
    (first second : List (String × JsonValue)) → Decidable (first = second)
  | [], [] => isTrue rfl
  | [], _ :: _ | _ :: _, [] => isFalse (by simp)
  | (key, first) :: firsts, (key', second) :: seconds =>
      match decEq first second, decEqMembers firsts seconds with
      | isTrue h, isTrue hs =>
          decidable_of_iff (key = key') (by simp [h, hs])
      | isFalse h, _ => isFalse (by simp [h])
      | _, isFalse hs => isFalse (by simp [hs])

end

instance : DecidableEq JsonValue := decEq

theorem bool_ne_null (value : Bool) : bool value ≠ null := by simp

theorem int_ne_null (value : Int) : int value ≠ null := by simp

theorem float_ne_null (value : Rat) : float value ≠ null := by simp

theorem str_ne_null (value : String) : str value ≠ null := by simp

/-! ## Objects -/

def lookup (key : String) : Members → Option JsonValue
  | [] => none
  | (name, value) :: members =>
      if name = key then some value else lookup key members

@[simp] theorem lookup_nil (key : String) : lookup key [] = none := rfl

@[simp] theorem lookup_cons (key name : String) (value : JsonValue)
    (members : Members) :
    lookup key ((name, value) :: members) =
      if name = key then some value else lookup key members := rfl

theorem sizeOf_lt_of_lookup {key : String} {members : Members}
    {value : JsonValue} (h : lookup key members = some value) :
    sizeOf value < sizeOf members := by
  induction members with
  | nil => simp at h
  | cons member members ih =>
      obtain ⟨name, first⟩ := member
      rw [lookup_cons] at h
      split at h
      · cases h
        simp
        omega
      · have := ih h
        simp
        omega

@[simp] theorem lookup_assign (key wanted : String) (value : JsonValue)
    (members : Members) :
    lookup wanted (assign key value members) =
      if key = wanted then some value else lookup wanted members := by
  induction members with
  | nil => rfl
  | cons member members ih =>
      obtain ⟨name, former⟩ := member
      by_cases hname : name = key
      · by_cases hkey : key = wanted <;> simp [assign, hname, hkey]
      · by_cases hkey : key = wanted
        · subst hkey
          simp [assign, hname, ih]
        · simp [assign, hname, ih, hkey]

/-- The dictionary of the items: of two with one key the later is kept. -/
def ofItems (items : Members) : Members :=
  items.foldl (fun members item => assign item.1 item.2 members) []

theorem lookup_ofItems (key : String) (items : Members) :
    lookup key (ofItems items) =
      (lookupLast Prod.fst items key).map Prod.snd := by
  induction items using List.reverseRecOn with
  | nil => rfl
  | append_singleton items last ih =>
      rw [ofItems, List.foldl_append, List.foldl_cons, List.foldl_nil,
        lookup_assign, lookupLast_append_singleton]
      split
      · rfl
      · exact ih

def onlyKeys (allowed : List String) (members : Members) : Bool :=
  members.all fun member => allowed.contains member.1

end JsonValue

end Flydocs.Foundation
