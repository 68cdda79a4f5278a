/-!
# Identifiers

A name is a row of segments with points between them. Every segment is quoted on its own,
but a star that stands for all columns passes as it is.
-/

namespace SqlFragments.Identifier

def segments (name : List Char) : List (List Char) :=
  name.splitOn '.'

def writeWith (quote : List Char → List Char) (name : List Char) : List Char :=
  List.intercalate ['.'] ((segments name).map fun segment =>
    if segment = ['*'] then segment else quote segment)

/-- A segment between double quotes. What it holds is not looked at. -/
def standardQuote (segment : List Char) : List Char :=
  '"' :: segment ++ ['"']

def standard (name : String) : String :=
  String.ofList (writeWith standardQuote name.toList)

end SqlFragments.Identifier
