/-! Quoting words of a shell command. -/
namespace RecipeFlow.Shell

/-- The characters that make a word need quotes. -/
def needsQuotes (c : Char) : Bool :=
  ['\n', '\'', '|', '&', ';', '<', '>', '(', ')', '$', '\x60', '\\', '"', ' ', '\t', '*', '?', '[',
    '#', '~', '=', '%'].contains c

/-- A single quote inside quotes: the quotes are closed, it is escaped, they are opened again. -/
def quoteChar (c : Char) : List Char :=
  if c = '\'' then ['\'', '\\', '\'', '\''] else [c]

/-- A word that a shell reads back as the given characters. -/
def quoteChars (cs : List Char) : List Char :=
  if cs.isEmpty || cs.any needsQuotes then '\'' :: cs.flatMap quoteChar ++ ['\''] else cs

/-- A word that a shell reads back as the given text. -/
def quote (s : String) : String :=
  String.ofList (quoteChars s.toList)

end RecipeFlow.Shell
