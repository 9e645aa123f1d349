/-!
# Methods and tags

A line of output comes from one of four console methods. On its way through a text stream it begins with
the tag of its method, and may then name the line of source that printed it by a marker.

## Main definitions

* `Method`: the methods.
* `Method.tag`, `Method.ofTag?`: how a method is named in a stream.
* `lineMarker`: how a line of source is named in a stream.
* `taggedLine`: a whole line of a stream.
-/

namespace Scratchpad.Log

/-- The console method that a line of output comes from. -/
inductive Method where
  | log
  | error
  | warn
  | info
deriving DecidableEq, Inhabited, Repr

namespace Method

/-- All methods, in the order in which their tags are looked for. -/
def all : List Method := [log, error, warn, info]

/-- What a line of a method begins with. -/
def tag : Method → String
  | log => "__LOG__"
  | error => "__ERR__"
  | warn => "__WRN__"
  | info => "__INF__"

/-- The method of a tag. -/
def ofTag? (s : String) : Option Method := all.find? (·.tag == s)

/-- How a method is called in records. -/
def name : Method → String
  | log => "log"
  | error => "error"
  | warn => "warn"
  | info => "info"

/-- The method of a name. -/
def ofName? (s : String) : Option Method := all.find? (·.name == s)

@[simp] theorem mem_all (m : Method) : m ∈ all := by cases m <;> decide

@[simp] theorem ofTag?_tag (m : Method) : ofTag? m.tag = some m := by cases m <;> decide

@[simp] theorem ofName?_name (m : Method) : ofName? m.name = some m := by cases m <;> decide

end Method

/-- What divides a tag or a marker from what follows it. -/
def separator : Char := ' '

/-- What a marker begins with. -/
def markerOpening : String := "[LINE_MARKER:"

/-- What a marker ends with. -/
def markerClosing : String := "]"

/-- The marker of a line of source. -/
def lineMarker (line : Nat) : String :=
  markerOpening ++ toString line ++ markerClosing

/-- A line of output as it goes through a stream. -/
def taggedLine (method : Method) (line : Option UInt32) (content : String) : String :=
  match line with
  | some n =>
    method.tag ++ String.singleton separator ++ lineMarker n.toNat ++ String.singleton separator ++ content
  | none => method.tag ++ String.singleton separator ++ content

end Scratchpad.Log
