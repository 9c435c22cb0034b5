import VbOutline.Symbol.Kind

/-!
# Blocks

A block is opened by a declaration, a region marker, a property accessor or a control statement,
and closed by a statement of its own.
-/

namespace VbOutline

inductive Block where
  | sub
  | function
  | classType
  | moduleType
  | property
  | structType
  | interfaceType
  | enumType
  | nameSpace
  | region
  | getter
  | setter
  | ifThen
  | forNext
  | whileLoop
  | doLoop
  | selectCase
  | tryCatch
  | withObject
  | usingObject
  | syncLock
  deriving DecidableEq, Repr

namespace Block

def keyword : Block → String
  | sub => "Sub"
  | function => "Function"
  | classType => "Class"
  | moduleType => "Module"
  | property => "Property"
  | structType => "Structure"
  | interfaceType => "Interface"
  | enumType => "Enum"
  | nameSpace => "Namespace"
  | region => "#Region"
  | getter => "Get"
  | setter => "Set"
  | ifThen => "If"
  | forNext => "For"
  | whileLoop => "While"
  | doLoop => "Do"
  | selectCase => "Select"
  | tryCatch => "Try"
  | withObject => "With"
  | usingObject => "Using"
  | syncLock => "SyncLock"

/-- The statement that closes the block. -/
def closing : Block → String
  | region => "#End Region"
  | forNext => "Next"
  | doLoop => "Loop"
  | b => "End " ++ b.keyword

/-- The words that name a block, in lower case: its keyword and, for loops, the word that may close
it. Regions are not named by a word. -/
def words : List (String × Block) :=
  [("sub", sub), ("function", function), ("class", classType), ("module", moduleType),
    ("property", property), ("structure", structType), ("interface", interfaceType),
    ("enum", enumType), ("namespace", nameSpace), ("get", getter), ("set", setter),
    ("if", ifThen), ("for", forNext), ("next", forNext), ("while", whileLoop),
    ("wend", whileLoop), ("do", doLoop), ("loop", doLoop), ("select", selectCase),
    ("try", tryCatch), ("with", withObject), ("using", usingObject), ("synclock", syncLock)]

/-- The block that a word names, in any ASCII case. -/
def ofWord? (word : Text) : Option Block :=
  words.lookup (String.ofList (Text.asciiLower word))

/-- The kind of the symbol that a declaring block introduces. -/
def symbolKind? : Block → Option SymbolKind
  | sub => some .method
  | function => some .function
  | classType => some .classType
  | moduleType => some .moduleType
  | property => some .property
  | structType => some .structType
  | interfaceType => some .interfaceType
  | enumType => some .enumType
  | nameSpace | region => some .container
  | _ => none

/-- Blocks whose body is executable code. -/
def isMethodLike : Block → Bool
  | sub | function | property | getter | setter => true
  | _ => false

def isControl : Block → Bool
  | ifThen | forNext | whileLoop | doLoop | selectCase | tryCatch | withObject | usingObject
  | syncLock => true
  | _ => false

end Block

end VbOutline
