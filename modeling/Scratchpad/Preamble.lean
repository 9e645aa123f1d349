import Scratchpad.Log.Method

/-!
# The preamble

A compiled source is run together with a preamble, a module that is evaluated before it. The preamble
sends what the console methods print through the stream of tagged lines, turns uncaught errors into
lines of the error method, and offers `require` to sources that expect it.

## Main definitions

* `preambleFile`, `preamble`: the name of the module and its text.
* `composeEntry`: the text of the module that runs a compiled source.
-/

namespace Scratchpad

open Log

/-- The name of the file that holds the preamble. -/
def preambleFile : String := "__tsplay_shim.mjs"

/-- A character within a pattern that is to match it and nothing else. -/
def patternChar (c : Char) : List Char :=
  if "\\^$.|?*+()[]\x7b\x7d/".toList.contains c then ['\\', c] else [c]

/-- A pattern that matches a text and nothing else. -/
def literalPattern (s : String) : String := String.ofList (s.toList.flatMap patternChar)

/-- The pattern of a marker that is a whole text. -/
def markerPattern : String :=
  "^" ++ literalPattern markerOpening ++ "\\d+" ++ literalPattern markerClosing ++ "$"

/-- A text between double quotes. -/
def inQuotes (s : String) : String := "\"" ++ s ++ "\""

/-- The line that makes a console method write tagged lines. -/
def redirection (name : String) (method : Method) : String :=
  "console." ++ name ++ " = (...args) => __tsplayEmit(" ++ inQuotes method.tag ++ ", args);"

/-- The lines of the preamble. -/
def preambleLines : List String :=
  let sep := inQuotes (String.singleton separator)
  let error := inQuotes Method.error.tag
  [ "import \x7b createRequire \x7d from \"node:module\";",
    "import \x7b format \x7d from \"node:util\";",
    "",
    "if (typeof globalThis.require === \"undefined\") \x7b",
    "    globalThis.require = createRequire(import.meta.url);",
    "\x7d",
    "",
    "const __tsplayWrite = console.log.bind(console);",
    "const __tsplayMarker = /" ++ markerPattern ++ "/;",
    "",
    "function __tsplayEmit(tag, args) \x7b",
    "    let marker = \"\";",
    "    if (args.length > 0 && typeof args[0] === \"string\" && __tsplayMarker.test(args[0])) \x7b",
    "        marker = args[0] + " ++ sep ++ ";",
    "        args = args.slice(1);",
    "    \x7d",
    "    const msg = format(...args);",
    "    for (const line of msg.split(\"\\n\")) \x7b",
    "        __tsplayWrite(tag + " ++ sep ++ " + marker + line);",
    "    \x7d",
    "\x7d",
    "",
    redirection "log" .log,
    redirection "debug" .log,
    redirection "info" .info,
    redirection "warn" .warn,
    redirection "error" .error,
    "",
    "process.on(\"uncaughtException\", (err) => \x7b",
    "    __tsplayEmit(" ++ error ++ ", [\"Uncaught Exception:\", err]);",
    "    process.exit(1);",
    "\x7d);",
    "",
    "process.on(\"unhandledRejection\", (reason) => \x7b",
    "    __tsplayEmit(" ++ error ++ ", [\"Unhandled Rejection:\", reason]);",
    "\x7d);" ]

/-- The text of the preamble. -/
def preamble : String := String.join (preambleLines.map (· ++ "\n"))

/-- The text of the module that runs a compiled source after the preamble. -/
def composeEntry (compiled : String) : String :=
  "import \"./" ++ preambleFile ++ "\";\n" ++ compiled

end Scratchpad
