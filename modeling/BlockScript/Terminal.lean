/-!
The kinds of token of the two source languages: sprite and stage scripts, and the
setup of a project. Each kind has a name, under which messages and listings mention
it; marks and keywords also have a spelling.
-/
namespace BlockScript

inductive Dialect
  | script
  | setup
  deriving DecidableEq, Repr

inductive Terminal
  | spriteName | costume | sound | xPosition | yPosition | visibility | size | direction
  | draggable | rotationStyle | layer | colon | semicolon | word | equals | string | decimal
  | integer | lparen | rparen | lbracket | rbracket | lbrace | rbrace | dot | comma | plus
  | minus | times | dividedBy | modulo | exponent | concat | plusAssign | minusAssign
  | timesAssign | dividedByAssign | moduloAssign | exponentAssign | concatAssign | lessThan
  | greaterThan | lessThanEqual | greaterThanEqual | equalTo | notEqualTo | scratch | this | not
  | and | or | isIn | ifWord | elseWord | forWord | whileWord | trueWord | falseWord | warp
  | function | returnWord | const | numType | strType | boolType | varType | project | filename
  deriving DecidableEq, Repr

namespace Terminal

def name : Terminal → String
  | spriteName => "SPRITENAMEDEC"
  | costume => "COSTUMEDEC"
  | sound => "SOUNDDEC"
  | xPosition => "XDEC"
  | yPosition => "YDEC"
  | visibility => "VISIBILITYDEC"
  | size => "SIZEDEC"
  | direction => "DIRECTIONDEC"
  | draggable => "DRAGGABLEDEC"
  | rotationStyle => "ROTATIONSTYLEDEC"
  | layer => "LAYERDEC"
  | colon => "COLON"
  | semicolon => "SEMICOLON"
  | word => "VARIABLE"
  | equals => "EQUALS"
  | string => "STRING"
  | decimal => "DECIMAL"
  | integer => "INTEGER"
  | lparen => "LPAREN"
  | rparen => "RPAREN"
  | lbracket => "LBRACKET"
  | rbracket => "RBRACKET"
  | lbrace => "LBRACE"
  | rbrace => "RBRACE"
  | dot => "DOT"
  | comma => "COMMA"
  | plus => "PLUS"
  | minus => "MINUS"
  | times => "TIMES"
  | dividedBy => "DIVIDEDBY"
  | modulo => "MODULO"
  | exponent => "EXPONENT"
  | concat => "CONCAT"
  | plusAssign => "PLUSASSIGN"
  | minusAssign => "MINUSASSIGN"
  | timesAssign => "TIMESASSIGN"
  | dividedByAssign => "DIVIDEDBYASSIGN"
  | moduloAssign => "MODULOASSIGN"
  | exponentAssign => "EXPONENTASSIGN"
  | concatAssign => "CONCATASSIGN"
  | lessThan => "LESSTHAN"
  | greaterThan => "GREATERTHAN"
  | lessThanEqual => "LESSTHANEQUAL"
  | greaterThanEqual => "GREATERTHANEQUAL"
  | equalTo => "EQUALTO"
  | notEqualTo => "NOTEQUALTO"
  | scratch => "SCRATCH"
  | this => "THIS"
  | not => "NOT"
  | and => "AND"
  | or => "OR"
  | isIn => "IN"
  | ifWord => "IF"
  | elseWord => "ELSE"
  | forWord => "FOR"
  | whileWord => "WHILE"
  | trueWord => "TRUE"
  | falseWord => "FALSE"
  | warp => "WARP"
  | function => "FUNCTION"
  | returnWord => "RETURN"
  | const => "CONST"
  | numType => "NUMTYPE"
  | strType => "STRTYPE"
  | boolType => "BOOLTYPE"
  | varType => "VARTYPE"
  | project => "PROJECTDEC"
  | filename => "FILENAMEDEC"

def all : List Terminal :=
  [.spriteName, .costume, .sound, .xPosition, .yPosition, .visibility, .size, .direction,
   .draggable, .rotationStyle, .layer, .colon, .semicolon, .word, .equals, .string, .decimal,
   .integer, .lparen, .rparen, .lbracket, .rbracket, .lbrace, .rbrace, .dot, .comma, .plus,
   .minus, .times, .dividedBy, .modulo, .exponent, .concat, .plusAssign, .minusAssign,
   .timesAssign, .dividedByAssign, .moduloAssign, .exponentAssign, .concatAssign, .lessThan,
   .greaterThan, .lessThanEqual, .greaterThanEqual, .equalTo, .notEqualTo, .scratch, .this, .not,
   .and, .or, .isIn, .ifWord, .elseWord, .forWord, .whileWord, .trueWord, .falseWord, .warp,
   .function, .returnWord, .const, .numType, .strType, .boolType, .varType, .project, .filename]

/-- The marks of scripts, longer ones first, so that the first that fits is the
longest that does. -/
def scriptMarks : List (String × Terminal) :=
  [("#rotationstyle", .rotationStyle), ("#direction", .direction), ("#draggable", .draggable),
   ("#costume", .costume), ("#visible", .visibility), ("#sound", .sound), ("#layer", .layer),
   ("#name", .spriteName), ("#size", .size), ("**=", .exponentAssign), ("..=", .concatAssign),
   ("#x", .xPosition), ("#y", .yPosition), ("**", .exponent), ("..", .concat),
   ("+=", .plusAssign), ("-=", .minusAssign), ("*=", .timesAssign), ("/=", .dividedByAssign),
   ("%=", .moduloAssign), ("<=", .lessThanEqual), (">=", .greaterThanEqual), ("==", .equalTo),
   ("!=", .notEqualTo), (":", .colon), (";", .semicolon), ("=", .equals), ("(", .lparen),
   (")", .rparen), ("[", .lbracket), ("]", .rbracket), ("\x7b", .lbrace), ("\x7d", .rbrace),
   (".", .dot), (",", .comma), ("+", .plus), ("-", .minus), ("*", .times), ("/", .dividedBy),
   ("%", .modulo), ("<", .lessThan), (">", .greaterThan)]

/-- The marks of setups: those of scripts but braces, the single point and the names
of declarations. -/
def setupMarks : List (String × Terminal) :=
  [("**=", .exponentAssign), ("..=", .concatAssign), ("**", .exponent), ("..", .concat),
   ("+=", .plusAssign), ("-=", .minusAssign), ("*=", .timesAssign), ("/=", .dividedByAssign),
   ("%=", .moduloAssign), ("<=", .lessThanEqual), (">=", .greaterThanEqual), ("==", .equalTo),
   ("!=", .notEqualTo), (":", .colon), (";", .semicolon), ("=", .equals), ("(", .lparen),
   (")", .rparen), ("[", .lbracket), ("]", .rbracket), (",", .comma), ("+", .plus), ("-", .minus),
   ("*", .times), ("/", .dividedBy), ("%", .modulo), ("<", .lessThan), (">", .greaterThan)]

def marks : Dialect → List (String × Terminal)
  | .script => scriptMarks
  | .setup => setupMarks

def scriptKeywords : List (String × Terminal) :=
  [("scratch", .scratch), ("this", .this), ("not", .not), ("and", .and), ("or", .or),
   ("in", .isIn), ("if", .ifWord), ("else", .elseWord), ("for", .forWord), ("while", .whileWord),
   ("true", .trueWord), ("false", .falseWord), ("warp", .warp), ("function", .function),
   ("return", .returnWord), ("const", .const), ("num", .numType), ("str", .strType),
   ("bool", .boolType), ("var", .varType)]

def setupKeywords : List (String × Terminal) :=
  [("project", .project), ("as", .filename), ("not", .not), ("and", .and), ("or", .or),
   ("in", .isIn), ("true", .trueWord), ("false", .falseWord), ("const", .const),
   ("num", .numType), ("str", .strType), ("bool", .boolType), ("var", .varType)]

def keywords : Dialect → List (String × Terminal)
  | .script => scriptKeywords
  | .setup => setupKeywords

/-- A word is a keyword of its language, or a name. -/
def ofWord (d : Dialect) (word : String) : Terminal :=
  ((keywords d).lookup word).getD .word

def isKeyword (d : Dialect) (t : Terminal) : Bool :=
  (keywords d).any fun k => k.2 = t

def isDeclarator (t : Terminal) : Bool :=
  [spriteName, costume, sound, xPosition, yPosition, visibility, size, direction, draggable,
    rotationStyle, layer, project, filename].contains t

end Terminal

end BlockScript
