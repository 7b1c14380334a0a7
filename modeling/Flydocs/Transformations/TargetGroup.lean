import Flydocs.Extraction.Postprocess

/-!
# The target of a transformation

Both transformers read the rows of the first array field of the target group,
and put the rows that they produce in its place or into a group of their own.
`TextRuntime` adds the Unicode functions that they use.
-/

namespace Flydocs

open Foundation Dtos

/-- `words` finds the runs of word characters; `strValue` is `str` of a value
that is not a text. -/
structure TextRuntime extends Runtime where
  nfkd : String → String
  combining : Char → Bool
  lower : String → String
  upper : String → String
  isAlnum : Char → Bool
  words : String → List String
  strValue : FieldValue → String

def TextRuntime.ascii : TextRuntime where
  toRuntime := .ofJson
  nfkd text := text
  combining _ := false
  lower text := String.ofList (text.toList.map Char.toLower)
  upper text := String.ofList (text.toList.map Char.toUpper)
  isAlnum := Char.isAlphanum
  words text :=
    ((text.toList.splitOnP fun char => !Schema.isWord char).filter
      (· ≠ [])).map String.ofList
  strValue
    | .int number => toString number
    | .bool true => "True"
    | .bool false => "False"
    | _ => ""

namespace Transformations

/-! ## Rows -/

def isList (field : ExtractedField) : Bool :=
  match field.value with
  | .list _ => true
  | _ => false

def rowsOf (field : ExtractedField) : List ExtractedField :=
  match field.value with
  | .list rows => rows
  | _ => []

def findGroup (groups : List ExtractedFieldGroup) (name : String) :
    Option ExtractedFieldGroup :=
  groups.find? (·.name = name)

def findArrayField (group : ExtractedFieldGroup) : Option ExtractedField :=
  group.fields.find? isList

def targetRows (groups : List ExtractedFieldGroup) (target : String) :
    List ExtractedField :=
  match (findGroup groups target).bind findArrayField with
  | some field => rowsOf field
  | none => []

/-! ## Results -/

def replaceFirst {Item : Type} (test : Item → Bool) (update : Item → Item) :
    List Item → List Item
  | [] => []
  | item :: items =>
      if test item then update item :: items
      else item :: replaceFirst test update items

def newArray (field : ExtractedField) (rows : List ExtractedField) :
    ExtractedField where
  name := field.name
  value := .list rows
  pages := field.pages
  confidence := field.confidence
  bbox := field.bbox

def replaceArray (rows : List ExtractedField) (group : ExtractedFieldGroup) :
    ExtractedFieldGroup :=
  { group with
    fields := replaceFirst isList (fun field => newArray field rows)
      group.fields }

/-- The groups after a successful transformation, and the group it produced. -/
def putRows (target : String) (outputGroup : Option String)
    (groups : List ExtractedFieldGroup) (group : ExtractedFieldGroup)
    (field : ExtractedField) (rows : List ExtractedField) :
    List ExtractedFieldGroup × ExtractedFieldGroup :=
  match outputGroup with
  | none | some "" =>
      (replaceFirst (·.name = target) (replaceArray rows) groups,
        replaceArray rows group)
  | some output =>
      let produced : ExtractedFieldGroup :=
        { name := output, fields := [newArray field rows] }
      (groups ++ [produced], produced)

/-- The shape that both transformers share; `transform` yields no rows where
the transformer gives up. -/
def applyWith {Raised : Type}
    (transform : List ExtractedField →
      Except Raised (Option (List ExtractedField)))
    (target : String) (outputGroup : Option String)
    (groups : List ExtractedFieldGroup) :
    Except Raised (List ExtractedFieldGroup × Option ExtractedFieldGroup) :=
  match findGroup groups target with
  | none => .ok (groups, none)
  | some group =>
      match findArrayField group with
      | none => .ok (groups, none)
      | some field =>
          if rowsOf field = [] then .ok (groups, none)
          else
            match transform (rowsOf field) with
            | .error raised => .error raised
            | .ok none => .ok (groups, none)
            | .ok (some rows) =>
                let (groups, produced) :=
                  putRows target outputGroup groups group field rows
                .ok (groups, some produced)

end Transformations

end Flydocs
