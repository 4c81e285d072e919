/-!
# Names in constant case

The variants of an enumeration are named in camel case. Their constants and mnemonics are the same
names in constant case: `LoadMem` becomes `LOAD_MEM` and `JumpL` becomes `JUMP_L`. Only ASCII
letters have a case here.
-/

namespace ByteBasic.Tag

/-- The characters of a name after the first: an underscore comes before each upper-case letter. -/
def constantRest : List Char → List Char
  | [] => []
  | c :: rest =>
    if c.isUpper then '_' :: c :: constantRest rest else c.toUpper :: constantRest rest

def constantChars : List Char → List Char
  | [] => []
  | c :: rest => c.toUpper :: constantRest rest

/-- A name in constant case. -/
def constantCase (name : String) : String :=
  String.ofList (constantChars name.toList)

end ByteBasic.Tag
