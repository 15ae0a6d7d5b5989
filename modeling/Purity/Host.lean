-- What a run meets on the machine and cannot know beforehand.

namespace Purity

/-- What is up to the machine: the turns that the workers take, which files may be opened to be
written, how many bytes a file takes before it takes no more, how many bytes can be printed, and what
the system says when no more can be. -/
structure Host where
  turns : List Nat := []
  opens : List String → Bool := fun _ => true
  fileRoom : List String → Option Nat := fun _ => none
  printRoom : Option Nat := none
  complaint : String := "Broken pipe (os error 32)"

namespace Host

/-- Whether a text fits. Without a bound, every text does. -/
def fits (room : Option Nat) (text : String) : Bool :=
  match room with
  | none => true
  | some n => text.utf8ByteSize ≤ n

/-- The characters that fit into a number of bytes, up to the first that does not. -/
def takeBytes : Nat → List Char → List Char
  | _, [] => []
  | n, c :: cs => if c.utf8Size ≤ n then c :: takeBytes (n - c.utf8Size) cs else []

/-- As much of a text as fits. -/
def beginning (room : Option Nat) (text : String) : String :=
  match room with
  | none => text
  | some n => String.ofList (takeBytes n text.toList)

/-- What stands in a file that has taken as much of a text as fits. A character that is there only in
part makes it no text. -/
def kept (room : Option Nat) (text : String) : Option String :=
  let part := beginning room text
  if fits room text || room = some part.utf8ByteSize then some part else none

end Host

end Purity
