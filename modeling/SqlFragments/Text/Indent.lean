/-!
# Common indentation

The literal parts of a statement are often written over several indented lines. The spaces
and tabs in front of the first line with content are the common indentation, and `dedent`
takes them away from the start of every line of every part.
-/

namespace SqlFragments.Text

def isIndent (c : Char) : Bool :=
  c == ' ' || c == '\t'

/-- Leaves out leading lines that hold only spaces and tabs. The second argument is the rest
of the line that is being looked at, the first the text from the start of that line. -/
def dropBlankLinesFrom (line : List Char) : List Char → List Char
  | [] => line
  | c :: rest =>
    if c = '\n' then dropBlankLinesFrom rest rest
    else if isIndent c then dropBlankLinesFrom line rest
    else line

def dropBlankLines (cs : List Char) : List Char :=
  dropBlankLinesFrom cs cs

/-- The run of spaces and tabs in front of the first line with content. -/
def indentation (first : List Char) : List Char :=
  (dropBlankLines first).takeWhile isIndent

def dedentLine (indent line : List Char) : List Char :=
  if indent.isPrefixOf line then line.drop indent.length else line

def dedentLines (indent cs : List Char) : List Char :=
  List.intercalate ['\n'] ((cs.splitOn '\n').map (dedentLine indent))

/-- Takes the common indentation away from every line of every part. When there is none, the
leading blank lines of the first part go instead. -/
def dedent : List (List Char) → List (List Char)
  | [] => []
  | first :: rest =>
    match indentation first with
    | [] => dropBlankLines first :: rest
    | indent => (first :: rest).map (dedentLines indent)

@[simp]
theorem length_dedent (parts : List (List Char)) : (dedent parts).length = parts.length := by
  cases parts with
  | nil => rfl
  | cons first rest => simp only [dedent]; split <;> simp

end SqlFragments.Text
