import AgentVoice.Foundations.Bytes
import AgentVoice.Foundations.JsonKeys

/-!
# Writing JSON values

The compact text of a value: no white space, strings and objects as in `JsonText`, an integer by its digits, a float by
the text it is kept as.
-/

namespace AgentVoice.Foundations

namespace Json

mutual

/-- The characters of a value. -/
def chars : Json → List Char
  | .null => "null".toList
  | .bool b => (if b then "true" else "false").toList
  | .int n => (toString n).toList
  | .float text => text.toList
  | .str s => quotedChars s.toList
  | .arr items => arrayChars (itemChars items)
  | .obj fields => objectChars (fieldChars fields)

def itemChars : List Json → List (List Char)
  | [] => []
  | item :: items => chars item :: itemChars items

def fieldChars : List (String × Json) → List (List Char)
  | [] => []
  | (key, value) :: fields => memberChars key (chars value) :: fieldChars fields

end

mutual

/-- The characters of a value over several lines, from an indentation on. -/
def prettyChars (indent : ℕ) : Json → List Char
  | .arr [] => "[]".toList
  | .arr items => '[' :: (prettyItems (indent + 2) items ++ '\n' :: (List.replicate indent ' ' ++ [']']))
  | .obj [] => [Char.ofNat 123, Char.ofNat 125]
  | .obj fields =>
    Char.ofNat 123 :: (prettyFields (indent + 2) fields ++ '\n' :: (List.replicate indent ' ' ++ [Char.ofNat 125]))
  | value => chars value

def prettyItems (indent : ℕ) : List Json → List Char
  | [] => []
  | [item] => '\n' :: (List.replicate indent ' ' ++ prettyChars indent item)
  | item :: items => '\n' :: (List.replicate indent ' ' ++ prettyChars indent item ++ ',' :: prettyItems indent items)

def prettyFields (indent : ℕ) : List (String × Json) → List Char
  | [] => []
  | [(key, value)] =>
    '\n' :: (List.replicate indent ' ' ++ quotedChars key.toList ++ ':' :: ' ' :: prettyChars indent value)
  | (key, value) :: fields =>
    '\n' :: (List.replicate indent ' ' ++ quotedChars key.toList ++ ':' :: ' ' :: prettyChars indent value ++
      ',' :: prettyFields indent fields)

end

/-- `serde_json::to_vec_pretty`. -/
def toVecPretty (value : Json) : List UInt8 := utf8 (String.ofList (value.prettyChars 0))

/-- `serde_json::to_vec`, of what a `Serialize` implementation shows the serializer. -/
def toVec (value : Json) : List UInt8 := utf8 (String.ofList value.chars)

/-- An optional value that is written in any case. -/
def nullable {α : Type} (serialize : α → Json) : Option α → Json
  | none => .null
  | some value => serialize value

/-- `skip_serializing_if = "Option::is_none"`. -/
def skipNone {α : Type} (field : String) (serialize : α → Json) : Option α → JsonObject
  | none => []
  | some value => [(field, serialize value)]

end Json

end AgentVoice.Foundations
