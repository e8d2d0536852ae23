import BlockchainTask.Common.Exception
import Mathlib.Data.List.Infix

/-! # The values of an answer

What a metadata request answers is whatever the JSON text holds, or the text itself
where it is none. A property that is not there is undefined, and what is no text has
no `replace`. -/
namespace BlockchainTask.Helper.Object
open BlockchainTask.Common.Exception

inductive Value where
  | undefined
  | null
  | bool (b : Bool)
  | number (n : Rat)
  | string (s : String)
  | array (items : List Value)
  | object (fields : List (String × Value))

namespace Value

/-- Nothing but an object has the properties that are read. -/
def property (key : String) : Value → Value
  | .object fields => (fields.lookup key).getD .undefined
  | _ => .undefined

def hasProperty (key : String) : Value → Bool
  | .object fields => (fields.lookup key).isSome
  | _ => false

/-- The text that a value is, if it is one. -/
def text? : Value → Option String
  | .string s => some s
  | _ => none

/-- A text, or null in its place. -/
def ofText : Option String → Value
  | some s => .string s
  | none => .null

@[simp] theorem text?_string (s : String) : (Value.string s).text? = some s := rfl

@[simp] theorem text?_undefined : Value.undefined.text? = none := rfl

@[simp] theorem text?_null : Value.null.text? = none := rfl

/-- A text and null are what is made of a text that may be missing. -/
theorem eq_ofText_iff {value : Value} :
    value = ofText value.text? ↔ value = .null ∨ value.text?.isSome = true := by
  cases value <;> simp [text?, ofText]

end Value

/-- `_.get`: a key of the object goes before a path with dots in it. -/
def get (object : Value) (path : String) : Value :=
  if object.hasProperty path then object.property path
  else ((path.toList.splitOn '.').map String.ofList).foldl (fun value key => value.property key) object

theorem foldl_property_undefined (keys : List String) :
    keys.foldl (fun value key => Value.property key value) .undefined = .undefined := by
  induction keys with
  | nil => rfl
  | cons key keys ih => exact ih

/-- Null has nothing at any path. -/
@[simp] theorem get_null (path : String) : get .null path = .undefined := by
  unfold get
  rw [if_neg (by simp [Value.hasProperty])]
  cases hkeys : (path.toList.splitOn '.').map String.ofList with
  | nil => exact absurd (List.map_eq_nil_iff.mp hkeys) (List.splitOnPPrepend_ne_nil _ _ _)
  | cons key keys => exact foldl_property_undefined keys

example : get (.object [("nft", .object [("image", .string "a")])]) "nft.image" = .string "a" := rfl

/-! ## Texts -/

def startsWith (text start : String) : Bool := start.toList.isPrefixOf text.toList

def removeFirst (pattern : List Char) : List Char → List Char
  | [] => []
  | c :: rest =>
    if pattern.isPrefixOf (c :: rest) then (c :: rest).drop pattern.length
    else c :: removeFirst pattern rest

/-- `replace` of a text by an empty one: only where it occurs first. -/
def remove (text pattern : String) : String :=
  String.ofList (removeFirst pattern.toList text.toList)

/-- `replace` as it is called on a value. -/
def Value.remove (pattern : String) : Value → Except Thrown String
  | .string s => .ok (Object.remove s pattern)
  | _ => .error (rawError "replace is not a function")

/-- Of a text that starts with the pattern, `replace` removes the start. -/
theorem remove_of_startsWith {text start : String} (hne : start ≠ "")
    (h : startsWith text start = true) :
    remove text start = String.ofList (text.toList.drop start.toList.length) := by
  unfold startsWith at h
  unfold remove
  cases htext : text.toList with
  | nil =>
    rw [htext, List.isPrefixOf_iff_prefix, List.prefix_nil] at h
    exact absurd (String.toList_eq_nil_iff.mp h) hne
  | cons c rest =>
    rw [htext] at h
    rw [removeFirst, if_pos h]

end BlockchainTask.Helper.Object
