import Scratchpad.TypeScript.Grammar.Names

/-!
# Values as targets

A list of values in parentheses may turn out to be a parameter list, and a value may turn out to be
the target of an assignment. What was read as a value is then taken as a pattern, if it has the shape
of one.

## Main definitions

* `Node.isSimpleTarget`: values that can be assigned to.
* `Grammar.asPattern`: a value taken as a pattern.
-/

namespace Scratchpad.TypeScript

namespace Node

/-- Whether an assignment may target a value that is no pattern. -/
def isSimpleTarget (isStrict : Bool) : Node → Bool
  | identifier _ name _ => !(isStrict && (name == "eval" || name == "arguments"))
  | member _ linkage _ _ | index _ linkage _ _ => linkage == .plain
  | paren _ e => e.isSimpleTarget isStrict
  | cast _ _ e _ => e.isSimpleTarget isStrict
  | _ => false

/-- Whether a value has the form of a target, valid or not. -/
def looksLikeTarget : Node → Bool
  | identifier .. | member .. | index .. | paren .. | cast .. => true
  | call _ linkage .. => linkage != .plain
  | _ => false

/-- Whether a name that strict code must not assign to stands here. -/
def isUnassignableName : Node → Bool
  | identifier _ name _ => name == "eval" || name == "arguments"
  | paren _ e => e.isUnassignableName
  | _ => false

/-- Whether a value is a function without a keyword. -/
def isArrow : Node → Bool
  | arrow .. => true
  | _ => false

end Node

namespace Grammar

open Rule

/-- Refuses a value that cannot be assigned to. -/
def checkTarget (e : Node) : Rule Unit := do
  if e.isUnassignableName then reportStrict e.pos .evalOrArgumentsInStrictCode
  else unless e.isSimpleTarget (← mode).isStrict do report e.pos .assignmentTarget

/-- Takes the elements of a list as patterns. Trailing holes do not count. -/
def elementsAsPatterns (use : PatternUse) (elements : List Node) : Rule (List Node) := do
  let elements := (elements.reverse.dropWhile Node.isAbsent).reverse
  let last := elements.length - 1
  elements.zipIdx.mapM fun (e, i) => do
    match e with
    | .absent => return .absent
    | .spread p argument =>
      if i != last then report argument.pos .restNotLast
      if let .assignment .. := argument then report p .restInitializer
      return .rest p (← goal (.asPattern use argument))
    | _ => goal (.asPattern use e)

/-- Takes a member of an object as a member of a pattern. -/
def memberAsPattern (use : PatternUse) (isLast : Bool) (m : Node) : Rule Node := do
  match m with
  | .shorthand p name => return .patternShorthand p name .absent
  | .shorthandDefault p name value => return .patternShorthand p name value
  | .property p key value => return .patternProperty p key (← goal (.asPattern use value))
  | .spread p argument =>
    unless isLast do report p .restNotLast
    return .rest p (← goal (.asPattern use argument))
  | _ => fail m.pos .invalidPattern

/-- Takes a value as a pattern. -/
def asPattern (use : PatternUse) (e : Node) : Rule Node := do
  match e with
  | .assignment p "=" target value => return .defaulted p target value
  | .object p members =>
    let last := members.length - 1
    return .objectPattern p (← members.zipIdx.mapM fun (m, i) => memberAsPattern use (i == last) m)
  | .array p elements => return .arrayPattern p (← elementsAsPatterns use elements)
  | .identifier p name _ =>
    if use == .bound then
      if isUnbindable name then reportStrict p .evalOrArgumentsInStrictCode
    else checkTarget e
    return e
  | .arrayPattern .. | .objectPattern .. | .defaulted .. | .rest .. | .typed .. => return e
  | _ =>
    if use == .assigned && e.looksLikeTarget then
      checkTarget e
      return e
    fail e.pos .invalidPattern

end Grammar

end Scratchpad.TypeScript
