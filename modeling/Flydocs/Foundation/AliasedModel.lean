import Flydocs.Foundation.JsonValue
import Flydocs.Foundation.Traverse

/-!
# Models whose fields have aliases

A model reads an object field by field and ignores the members that it does not
know.  A field is looked up under its alias, then under its attribute name, and
dumped under its alias.
-/

namespace Flydocs.Foundation

open JsonValue

structure AliasedField where
  attr : String
  name : String
  read : JsonValue → Option JsonValue
  default : JsonValue

namespace AliasedField

def plain (name : String) (read : JsonValue → Option JsonValue)
    (default : JsonValue) : AliasedField where
  attr := name
  name := name
  read := read
  default := default

variable (field : AliasedField)

def given (members : Members) : Option JsonValue :=
  (lookup field.name members).or (lookup field.attr members)

def answer : Option JsonValue → Option JsonValue
  | none => some field.default
  | some json => field.read json

/-- What an object gives to a field under keys that are its own: its alias, and
its attribute name unless that is the alias of some field. -/
def own (names : List String) (members : Members) : Option JsonValue :=
  (lookup field.name members).or
    (if field.attr ∈ names then none else lookup field.attr members)

def Clashes (names : List String) : Prop :=
  field.attr ∈ names ∧ field.attr ≠ field.name

instance (names : List String) : Decidable (field.Clashes names) :=
  inferInstanceAs (Decidable (_ ∧ _))

theorem own_eq_given {field : AliasedField} {names : List String}
    (h : ¬ field.Clashes names) (members : Members) :
    field.own names members = field.given members := by
  by_cases hattr : field.attr ∈ names
  · have hname : field.attr = field.name := by
      by_contra hne
      exact h ⟨hattr, hne⟩
    rw [own, given, if_pos hattr, hname]
    cases lookup field.name members <;> rfl
  · simp [own, given, hattr]

theorem given_singleton (key : String) (json : JsonValue) :
    field.given [(key, json)] =
      if key = field.name ∨ key = field.attr then some json else none := by
  by_cases hname : key = field.name
  · simp [given, hname]
  · by_cases hattr : key = field.attr
    · subst hattr
      simp [given, hname]
    · simp [given, hname, hattr]

theorem own_of_clashes {field : AliasedField} {names : List String}
    (h : field.Clashes names) (json : JsonValue) :
    field.own names [(field.attr, json)] = none := by
  simp [own, h.1, h.2]

end AliasedField

abbrev AliasedModel := List AliasedField

namespace AliasedModel

variable (model : AliasedModel)

def names : List String := model.map AliasedField.name

def dump (answers : List JsonValue) : JsonValue :=
  .obj (ofItems (model.names.zip answers))

def defaults : JsonValue := dump model (model.map AliasedField.default)

def validate : JsonValue → Option JsonValue
  | .obj members =>
      (model.mapM fun field : AliasedField =>
        field.answer (field.given members)).map (dump model)
  | _ => none

theorem validate_eq_some_iff {model : AliasedModel} {members : Members}
    {dumped : JsonValue} :
    validate model (.obj members) = some dumped ↔
      ∃ answers, List.Forall₂
        (fun field answer => field.answer (field.given members) = some answer)
        model answers ∧ dump model answers = dumped := by
  simp only [validate, Option.map_eq_some_iff, mapM_eq_some_iff]

theorem exists_of_validate {model : AliasedModel} {json dumped : JsonValue}
    (h : validate model json = some dumped) :
    ∃ members, json = .obj members := by
  cases json with
  | obj members => exact ⟨members, rfl⟩
  | _ => simp [validate] at h

theorem obj_of_validate {model : AliasedModel} {json dumped : JsonValue}
    (h : validate model json = some dumped) : ∃ items, dumped = .obj items := by
  obtain ⟨members, rfl⟩ := exists_of_validate h
  obtain ⟨answers, -, rfl⟩ := validate_eq_some_iff.mp h
  exact ⟨_, rfl⟩

theorem validate_empty : validate model (.obj []) = some (defaults model) := by
  refine validate_eq_some_iff.mpr ⟨model.map AliasedField.default, ?_, rfl⟩
  rw [List.forall₂_map_right_iff, List.forall₂_same]
  intro field _
  rfl

theorem exists_validate_eq_some {members : Members}
    (h : ∀ field ∈ model, ∃ answer,
      field.answer (field.given members) = some answer) :
    ∃ dumped, validate model (.obj members) = some dumped := by
  obtain ⟨answers, hanswers⟩ := exists_forall₂_iff.mpr h
  exact ⟨_, validate_eq_some_iff.mpr ⟨answers, hanswers, rfl⟩⟩

theorem map_fst_zip_names {answers : List JsonValue}
    (hlength : model.length = answers.length) :
    (model.names.zip answers).map Prod.fst = model.names := by
  rw [List.map_fst_zip]
  simp [names, hlength]

/-- Where the aliases are distinct, the dump holds the answer of every field
under its alias. -/
theorem lookup_of_validate {model : AliasedModel}
    (hnodup : model.names.Nodup) {members : Members} {dumped : JsonValue}
    (h : validate model (.obj members) = some dumped) :
    ∃ items, dumped = .obj items ∧ ∀ field ∈ model, ∃ answer,
      field.answer (field.given members) = some answer ∧
      lookup field.name items = some answer := by
  obtain ⟨answers, hanswers, rfl⟩ := validate_eq_some_iff.mp h
  refine ⟨_, rfl, ?_⟩
  intro field hfield
  obtain ⟨index, hindex, rfl⟩ := List.getElem_of_mem hfield
  have hlength := hanswers.length_eq
  have hlt : index < answers.length := by omega
  refine ⟨answers[index], hanswers.get hindex hlt, ?_⟩
  have hmem : (model[index].name, answers[index]) ∈
      model.names.zip answers := by
    rw [List.mem_iff_getElem]
    refine ⟨index, ?_, by simp [names]⟩
    simp only [names, List.length_zip, List.length_map]
    omega
  rw [lookup_ofItems, lookupLast_of_nodup
    (by rw [map_fst_zip_names model hlength]; exact hnodup) hmem]
  rfl

theorem lookup_eq_none_of_validate {model : AliasedModel} {members items : Members}
    (h : validate model (.obj members) = some (.obj items)) {name : String}
    (hname : name ∉ model.names) : lookup name items = none := by
  obtain ⟨answers, -, hdump⟩ := validate_eq_some_iff.mp h
  obtain rfl := JsonValue.obj.inj hdump
  rw [lookup_ofItems]
  cases hlast : lookupLast Prod.fst (model.names.zip answers) name with
  | none => rfl
  | some entry =>
      have hmem := (List.of_mem_zip (mem_of_lookupLast hlast)).1
      rw [key_of_lookupLast hlast] at hmem
      exact absurd hmem hname

end AliasedModel

end Flydocs.Foundation
