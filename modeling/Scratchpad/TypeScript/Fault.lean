import Scratchpad.Text.Quoted

/-!
# Faults of a source text

What can be wrong with a source text, with where it is. Every fault has a diagnostic text, its code
followed by the data that belongs to it; five of them quote a name or text of the source there.

## Main definitions

* `Fault`: the causes.
* `Fault.diagnostic`: code and data of a cause.
* `Flaw`: a cause and the position at which it shows.
-/

namespace Scratchpad.TypeScript

open Scratchpad.Text (quoted quotedLetter)

/-- What can be wrong with a source text. -/
inductive Fault where
  -- what the grammar wanted
  | expressionExpected
  | separatorExpected
  | endOfInput
  | identifierExpected
  | expected (token found : String)
  | unexpected (found wanted : String)
  | statementEndExpected (start stop : Nat)
  | declarationExpected
  -- characters and tokens
  | strangeCharacter (c : Char)
  | unterminatedText
  | unterminatedTemplate
  | unterminatedRegex
  | unterminatedComment
  | badEscape
  | escapeInReservedWord (word : String)
  | escapeExpected
  | invalidWordCharacter
  | wordAfterNumber
  | digitExpected (radix : Nat)
  | misplacedSeparator
  | octalNumber
  | octalInStrictCode
  | leadingZeroInStrictCode
  | markupComment
  | spaceAfterHash
  | regexFlagUnknown
  | regexFlagRepeated
  -- names
  | reservedInStrictCode (word : String)
  | evalOrArgumentsInStrictCode
  | argumentsInField
  | awaitAsName
  | duplicateLabel (name : String)
  | importBindingIsText (text : String)
  | exportBindingIsText
  | reservedWordInExport
  | reservedWordInImport
  | reservedTypeName
  | letInLexicalBinding
  -- statements
  | declarationNotAllowed
  | labelledFunction
  | labelledGenerator
  | lexicalInSingleStatement
  | breakOutside
  | breakLabelUnknown
  | continueOutside
  | continueLabelUnknown
  | returnOutside
  | lineBreakInThrow
  | withStatement
  | secondDefault
  | initializerMissing
  | patternInitializerMissing
  | usingInitializerMissing
  | usingPattern
  | trailingComma
  | loopVariableMissing
  | patternOverKeys
  | tooManyLoopBindings
  | loopInitializer
  | loopTypeGiven
  | asyncAsLoopTarget
  | forAwaitOutside
  | moduleItemNotAllowed
  -- expressions
  | assignmentTarget
  | invalidPattern
  | shorthandValue
  | emptyParens
  | spreadInParens
  | arrowLineBreak
  | arrowNotAllowed
  | unaryBeforePower (operand : String) (start stop : Nat)
  | mixedCoalescing
  | optionalInNew
  | optionalTemplate
  | newTargetOutside
  | importMetaOutside
  | importInNew
  | importArguments
  | importSpread
  | superOutside
  | superCall
  | nonNullOn (word : String)
  | yieldInParameters
  | awaitInFunction
  | awaitInParameters
  | awaitStar
  | deletedPrivateName
  -- functions and parameters
  | restNotLast
  | restInitializer
  | restTrailingComma
  | restOptional
  | optionalPattern
  | parameterModifier
  | parameterAfterThis
  | getterParameters
  | setterParameter
  | useStrictWithPatterns
  | bodyInAmbientContext
  | overloadMissingBody
  | typeAssertionAmbiguous
  -- classes
  | secondConstructor
  | constructorIsGenerator
  | constructorIsAsync
  | constructorIsAccessor
  | propertyNamedConstructor
  | privateConstructorName
  | staticPrototype
  | secondExtends
  | secondImplements
  | abstractOutsideAbstract
  | abstractWithBody
  | abstractInitializer
  | abstractPrivate
  | overrideWithoutBase
  | overrideMisplaced
  | modifierOrder (first second : String)
  | modifierNotHere (word : String)
  | modifierTwice (word : String)
  | accessOnPrivateName
  | declareOnPrivateName
  | declareOnMethod
  | typeParametersOnAccessor
  | accessorInOldClass
  | emptyDecorators
  | decoratorOnConstructor
  | decoratorNotHere
  | decoratorBeforeAndAfterExport
  | staticBlockModifier
  | indexSignatureModifier
  -- types and module syntax
  | typeListEmpty
  | enumKey
  | enumNumberKey
  | typeImportMixed
  | typeModifierTwice
  | importAsserts
  | exportDefaultNotHere
  | duplicateExport (name : String)
  | constModifier
  | invalidTypeSyntax
  | tupleOrder
  | nestingTooDeep
deriving DecidableEq, Inhabited

namespace Fault

/-- The code of a fault. -/
def code : Fault → String
  | expressionExpected => "TS1109"
  | separatorExpected => "TS1005"
  | endOfInput => "Eof"
  | identifierExpected => "ExpectedIdent"
  | expected .. => "Expected"
  | unexpected .. => "Unexpected"
  | statementEndExpected .. => "ExpectedSemiForExprStmt"
  | declarationExpected => "TS1146"
  | strangeCharacter _ => "UnexpectedChar"
  | unterminatedText => "UnterminatedStrLit"
  | unterminatedTemplate => "UnterminatedTpl"
  | unterminatedRegex => "UnterminatedRegExp"
  | unterminatedComment => "UnterminatedBlockComment"
  | badEscape => "BadCharacterEscapeSequence"
  | escapeInReservedWord _ => "EscapeInReservedWord"
  | escapeExpected => "ExpectedUnicodeEscape"
  | invalidWordCharacter => "InvalidIdentChar"
  | wordAfterNumber => "IdentAfterNum"
  | digitExpected _ => "ExpectedDigit"
  | misplacedSeparator => "NumericSeparatorIsAllowedOnlyBetweenTwoDigits"
  | octalNumber => "TS1085"
  | octalInStrictCode => "LegacyOctal"
  | leadingZeroInStrictCode => "LegacyDecimal"
  | markupComment => "LegacyCommentInModule"
  | spaceAfterHash => "SpaceBetweenHashAndIdent"
  | regexFlagUnknown => "UnknownRegExpFlags"
  | regexFlagRepeated => "DuplicatedRegExpFlags"
  | reservedInStrictCode _ => "InvalidIdentInStrict"
  | evalOrArgumentsInStrictCode => "EvalAndArgumentsInStrict"
  | argumentsInField => "ArgumentsInClassField"
  | awaitAsName => "InvalidIdentInAsync"
  | duplicateLabel _ => "DuplicateLabel"
  | importBindingIsText _ => "ImportBindingIsString"
  | exportBindingIsText => "ExportBindingIsString"
  | reservedWordInExport => "ExportExpectFrom"
  | reservedWordInImport => "ReservedWordInImport"
  | reservedTypeName => "TS2427"
  | letInLexicalBinding => "LetInLexicalBinding"
  | declarationNotAllowed => "DeclNotAllowed"
  | labelledFunction => "LabelledFunctionInStrict"
  | labelledGenerator => "LabelledGenerator"
  | lexicalInSingleStatement => "LexicalDeclInSingleStmtCtx"
  | breakOutside => "TS1105"
  | breakLabelUnknown => "TS1116"
  | continueOutside => "TS1115"
  | continueLabelUnknown => "TS1107"
  | returnOutside => "ReturnNotAllowed"
  | lineBreakInThrow => "LineBreakInThrow"
  | withStatement => "TS2410"
  | secondDefault => "MultipleDefault"
  | initializerMissing => "ConstDeclarationsRequireInitialization"
  | patternInitializerMissing => "PatVarWithoutInit"
  | usingInitializerMissing => "InitRequiredForUsingDecl"
  | usingPattern => "InvalidNameInUsingDecl"
  | trailingComma => "TS1009"
  | loopVariableMissing => "TS1123"
  | patternOverKeys => "TS2491"
  | tooManyLoopBindings => "TooManyVarInForInHead"
  | loopInitializer => "VarInitializerInForInHead"
  | loopTypeGiven => "TS2483"
  | asyncAsLoopTarget => "TS1106"
  | forAwaitOutside => "AwaitForStmt"
  | moduleItemNotAllowed => "NonTopLevelImportExport"
  | assignmentTarget => "TS2406"
  | invalidPattern => "InvalidPat"
  | shorthandValue => "AssignProperty"
  | emptyParens => "EmptyParenExpr"
  | spreadInParens => "SpreadInParenExpr"
  | arrowLineBreak => "LineBreakBeforeArrow"
  | arrowNotAllowed => "ArrowNotAllowed"
  | unaryBeforePower .. => "UnaryInExp"
  | mixedCoalescing => "NullishCoalescingWithLogicalOp"
  | optionalInNew => "OptChainCannotFollowConstructorCall"
  | optionalTemplate => "TaggedTplInOptChain"
  | newTargetOutside => "InvalidNewTarget"
  | importMetaOutside => "ImportMetaInScript"
  | importInNew => "InvalidImport"
  | importArguments => "ImportRequiresOneOrTwoArgs"
  | importSpread => "ImportSpread"
  | superOutside => "InvalidSuper"
  | superCall => "InvalidSuperCall"
  | nonNullOn _ => "TsNonNullAssertionNotAllowed"
  | yieldInParameters => "YieldParamInGen"
  | awaitInFunction => "AwaitInFunction"
  | awaitInParameters => "AwaitParamInAsync"
  | awaitStar => "AwaitStar"
  | deletedPrivateName => "DeletePrivateName"
  | restNotLast => "TS1014"
  | restInitializer => "TS1048"
  | restTrailingComma => "CommaAfterRestElement"
  | restOptional => "TS1047"
  | optionalPattern => "TsBindingPatCannotBeOptional"
  | parameterModifier => "TS2369"
  | parameterAfterThis => "TS2680"
  | getterParameters => "GetterParam"
  | setterParameter => "SetterParam"
  | useStrictWithPatterns => "IllegalLanguageModeDirective"
  | bodyInAmbientContext => "TS1183"
  | overloadMissingBody => "TS2391"
  | typeAssertionAmbiguous => "ReservedArrowTypeParam"
  | secondConstructor => "DuplicateConstructor"
  | constructorIsGenerator => "GeneratorConstructor"
  | constructorIsAsync => "AsyncConstructor"
  | constructorIsAccessor => "ConstructorAccessor"
  | propertyNamedConstructor => "PropertyNamedConstructor"
  | privateConstructorName => "PrivateConstructor"
  | staticPrototype => "StaticPrototype"
  | secondExtends => "TS1172"
  | secondImplements => "TS1175"
  | abstractOutsideAbstract => "TS1253"
  | abstractWithBody => "TS1245"
  | abstractInitializer => "TS1267"
  | abstractPrivate => "TS18019"
  | overrideWithoutBase => "TS4112"
  | overrideMisplaced => "TS1040"
  | modifierOrder .. => "TS1029"
  | modifierNotHere _ => "TS1274"
  | modifierTwice _ => "TS1030"
  | accessOnPrivateName => "TS18010"
  | declareOnPrivateName => "PrivateNameModifier"
  | declareOnMethod => "TS1031"
  | typeParametersOnAccessor => "TS1094"
  | accessorInOldClass => "AccessorInOldClass"
  | emptyDecorators => "DecoratorOnEmpty"
  | decoratorOnConstructor => "DecoratorOnConstructor"
  | decoratorNotHere => "TS1206"
  | decoratorBeforeAndAfterExport => "TS8038"
  | staticBlockModifier => "StaticBlockModifier"
  | indexSignatureModifier => "TS1071"
  | typeListEmpty => "EmptyTypeArgumentList"
  | enumKey => "TS1164"
  | enumNumberKey => "TS2452"
  | typeImportMixed => "TS1363"
  | typeModifierTwice => "TS2206"
  | importAsserts => "ImportAttributes"
  | exportDefaultNotHere => "ExportDefaultWithOutFrom"
  | duplicateExport _ => "DuplicateExport"
  | constModifier => "TS1277"
  | invalidTypeSyntax => "TsRequiredAfterOptional"
  | tupleOrder => "TsRequiredAfterOptional"
  | nestingTooDeep => "NestingTooDeep"

/-- Code and data of a fault, as it is shown to tools. -/
def diagnostic (f : Fault) : String :=
  match f with
  | expected token found => f.code ++ "(" ++ quoted token ++ ", " ++ quoted found ++ ")"
  | unexpected found wanted =>
    f.code ++ " \x7b got: " ++ quoted found ++ ", expected: " ++ quoted wanted ++ " \x7d"
  | statementEndExpected start stop =>
    f.code ++ " \x7b expr: " ++ toString start ++ ".." ++ toString stop ++ " \x7d"
  | strangeCharacter c => f.code ++ " \x7b c: " ++ quotedLetter c ++ " \x7d"
  | escapeInReservedWord word => f.code ++ " \x7b word: " ++ quoted word ++ " \x7d"
  | digitExpected radix => f.code ++ " \x7b radix: " ++ toString radix ++ " \x7d"
  | unaryBeforePower operand start stop =>
    f.code ++ " \x7b left: " ++ quoted operand ++ ", left_span: " ++ toString start ++ ".." ++
      toString stop ++ " \x7d"
  | reservedInStrictCode name | duplicateLabel name | importBindingIsText name | nonNullOn name
  | modifierNotHere name | modifierTwice name | duplicateExport name =>
    f.code ++ "(" ++ quoted name ++ ")"
  | modifierOrder first second => f.code ++ "(" ++ quoted first ++ ", " ++ quoted second ++ ")"
  | _ => f.code

end Fault

/-- A fault together with the position at which it shows. -/
structure Flaw where
  pos : Nat
  fault : Fault
deriving DecidableEq, Inhabited

end Scratchpad.TypeScript
