/-!
# Lines

Two ways to cut a text into lines.  A text in memory is cut at its line feeds.
Bytes that arrive one line at a time keep the line feed that ends them, and
each line is decoded by itself.
-/

namespace Extrusion
namespace Text

def consFirst {β : Type} (b : β) : List (List β) → List (List β)
  | [] => [[b]]
  | line :: lines => (b :: line) :: lines

/-- Cuts at every `stop`, which stays at the end of its line.  A last line
without `stop` counts where it is not empty. -/
def chunks {β : Type} [DecidableEq β] (stop : β) : List β → List (List β)
  | [] => []
  | b :: bs => if b = stop then [b] :: chunks stop bs else consFirst b (chunks stop bs)

/-- Drops a line feed at the end, and then a carriage return in front of it. -/
def chomp (line : List Char) : List Char :=
  match line.reverse with
  | '\n' :: '\r' :: cs => cs.reverse
  | '\n' :: cs => cs.reverse
  | _ => line

def lines (text : String) : List String :=
  (chunks '\n' text.toList).map fun line => String.ofList (chomp line)

def byteLines (bytes : List UInt8) : List (List UInt8) :=
  chunks 10 bytes

def decode? (bytes : List UInt8) : Option String :=
  String.fromUTF8? ⟨bytes.toArray⟩

end Text
end Extrusion
