import TrustDB.Result

/-!
Error values. A Go error is a text, a text in front of a cause, or one of the
coded errors of package `trusterr`; `codeOf` looks through the causes for the
first code, as `errors.As` does.
-/

namespace TrustDB

abbrev Bytes := List UInt8

inductive Code
  | invalidArgument
  | failedPrecondition
  | alreadyExists
  | notFound
  | resourceExhausted
  | deadlineExceeded
  | dataLoss
  | internal
  deriving Repr, DecidableEq

inductive Err
  | text (message : String)
  | textOf (message : String) (cause : Err)
  | new (code : Code) (message : String)
  | wrap (code : Code) (message : String) (cause : Err)
  deriving Repr, DecidableEq

namespace Err

def message : Err → String
  | text message => message
  | textOf message cause => message ++ ": " ++ cause.message
  | new _ message => message
  | wrap _ message cause => message ++ ": " ++ cause.message

def codeOf : Err → Code
  | text _ => .internal
  | textOf _ cause => cause.codeOf
  | new code _ => code
  | wrap code _ _ => code

end Err

abbrev Outcome := Except Err

/-- `unicode.IsSpace`. -/
def isSpace (symbol : Char) : Bool :=
  let point := symbol.toNat
  (0x09 ≤ point && point ≤ 0x0d) || point = 0x20 || point = 0x85 || point = 0xa0 ||
    point = 0x1680 || (0x2000 ≤ point && point ≤ 0x200a) || point = 0x2028 || point = 0x2029 ||
    point = 0x202f || point = 0x205f || point = 0x3000

/-- `strings.TrimSpace`. -/
def trimSpace (value : String) : String :=
  String.ofList (((value.toList.dropWhile isSpace).reverse.dropWhile isSpace).reverse)

def utf8 (value : String) : Bytes := value.toUTF8.data.toList

theorem utf8_injective {first second} (same : utf8 first = utf8 second) : first = second :=
  String.toByteArray_inj.mp (ByteArray.ext (Array.toList_inj.mp same))

end TrustDB
