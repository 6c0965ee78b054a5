/-!
# JSON documents

Documents are written with one member or element on each line, indented by two
spaces.  Numbers come with their text, and the names of members need no
escapes.
-/

namespace Extrusion
namespace Text

inductive Json where
  | null
  | number (text : String)
  | array (elements : List Json)
  | object (members : List (String × Json))

namespace Json

def block (opening closing : String) (depth : Nat) (parts : List String) : String :=
  if parts.isEmpty then opening ++ closing
  else
    let newline (n : Nat) : String := "\n" ++ String.ofList (List.replicate (2 * n) ' ')
    opening ++ newline (depth + 1) ++ ("," ++ newline (depth + 1)).intercalate parts
      ++ newline depth ++ closing

mutual

/-- The text of a document that stands inside `depth` containers. -/
def render (depth : Nat) : Json → String
  | .null => "null"
  | .number text => text
  | .array elements => block "[" "]" depth (renderElements (depth + 1) elements)
  | .object members => block "\x7b" "\x7d" depth (renderMembers (depth + 1) members)

def renderElements (depth : Nat) : List Json → List String
  | [] => []
  | element :: rest => render depth element :: renderElements depth rest

def renderMembers (depth : Nat) : List (String × Json) → List String
  | [] => []
  | (name, value) :: rest =>
      ("\"" ++ name ++ "\": " ++ render depth value) :: renderMembers depth rest

end

end Json

end Text
end Extrusion
