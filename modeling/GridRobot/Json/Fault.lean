import GridRobot.Text.Numeral
import GridRobot.Text.Quoted

/-!
# What can be wrong with a JSON document

A document that is no JSON is malformed, and nothing more is said about it. A document may also be JSON
and not describe what it should; then the message names what was found and what was expected.
-/

namespace GridRobot

namespace Json

/-- What stands in a document where something else should. -/
inductive Found where
  | null
  | boolean (value : Bool)
  | integer (value : Int)
  | real (shown : Text)
  | string (value : Text)
  | sequence
  | map
  deriving DecidableEq, Repr

def Found.render : Found → String
  | .null => "null"
  | .boolean true => "boolean `true`"
  | .boolean false => "boolean `false`"
  | .integer n => "integer `" ++ (if n < 0 then "-" else "") ++ showNat n.natAbs ++ "`"
  | .real shown => "floating point `" ++ String.ofList shown ++ "`"
  | .string s => "string " ++ String.ofList (Text.quoted s)
  | .sequence => "sequence"
  | .map => "map"

/-- Why a document does not describe what it should. -/
inductive DataFault where
  | missingField (name : String)
  | duplicateField (name : String)
  | invalidLength (length : Nat) (expected : String)
  | unknownVariant (given : Text) (choices : List String)
  | invalidType (found : Found) (expected : String)
  | invalidValue (found : Found) (expected : String)
  | countOutOfRange
  | countNegative
  deriving DecidableEq, Repr

def DataFault.message : DataFault → String
  | .missingField name => "missing field `" ++ name ++ "`"
  | .duplicateField name => "duplicate field `" ++ name ++ "`"
  | .invalidLength n expected => "invalid length " ++ showNat n ++ ", expected " ++ expected
  | .unknownVariant given choices =>
      "unknown variant `" ++ String.ofList given ++ "`, expected one of " ++
        ", ".intercalate (choices.map fun c => "`" ++ c ++ "`")
  | .invalidType found expected => "invalid type: " ++ found.render ++ ", expected " ++ expected
  | .invalidValue found expected => "invalid value: " ++ found.render ++ ", expected " ++ expected
  | .countOutOfRange => "beeper count out of range"
  | .countNegative => "beeper count must not be negative"

inductive Fault where
  | malformed
  | data (fault : DataFault)
  deriving DecidableEq, Repr

end Json

end GridRobot
