import GridRobot.Text.Numeral

/-!
# Diagnostics

A finding about a script has a code, which decides how severe it is, a message, and where they apply a
line and a suggestion. A collection keeps errors and warnings apart and stores only the first ones of
each, but counts them all.
-/

namespace GridRobot

inductive Severity where
  | error
  | warning
  deriving DecidableEq, Repr

def Severity.name : Severity → String
  | .error => "error"
  | .warning => "warning"

structure DiagnosticCode where
  number : UInt16
  deriving DecidableEq, Repr

namespace DiagnosticCode

def missingMain : DiagnosticCode := ⟨100⟩

def unbalancedParentheses : DiagnosticCode := ⟨101⟩

def callWithoutParentheses : DiagnosticCode := ⟨102⟩

def expectedIndent : DiagnosticCode := ⟨103⟩

def severity (c : DiagnosticCode) : Severity :=
  if c = callWithoutParentheses then .warning else .error

def render (c : DiagnosticCode) : String := "K" ++ showNat c.number.toNat

end DiagnosticCode

structure Diagnostic where
  code : DiagnosticCode
  message : String
  line : Option Nat
  suggestion : Option String
  deriving DecidableEq, Repr

namespace Diagnostic

def severity (d : Diagnostic) : Severity := d.code.severity

def render (d : Diagnostic) : String :=
  let place := match d.line with
    | some line => showNat line ++ ": "
    | none => ""
  place ++ d.code.render ++ " [" ++ d.severity.name ++ "] " ++ d.message

end Diagnostic

/-- How many errors and how many warnings are stored. -/
def maxDiagnostics : Nat := 20

structure Diagnostics where
  errors : List Diagnostic
  warnings : List Diagnostic
  totalErrors : Nat
  totalWarnings : Nat
  deriving DecidableEq, Repr

namespace Diagnostics

def empty : Diagnostics := ⟨[], [], 0, 0⟩

/-- A list with one more item, unless it is full. -/
def store (ds : List Diagnostic) (d : Diagnostic) : List Diagnostic :=
  if ds.length < maxDiagnostics then ds ++ [d] else ds

def push (ds : Diagnostics) (d : Diagnostic) : Diagnostics :=
  match d.severity with
  | .error => { ds with errors := store ds.errors d, totalErrors := ds.totalErrors + 1 }
  | .warning => { ds with warnings := store ds.warnings d, totalWarnings := ds.totalWarnings + 1 }

def ofList (ds : List Diagnostic) : Diagnostics := ds.foldl push empty

/-- What is stored, errors first. -/
def stored (ds : Diagnostics) : List Diagnostic := ds.errors ++ ds.warnings

def hasErrors (ds : Diagnostics) : Bool := 0 < ds.totalErrors

def isClean (ds : Diagnostics) : Bool := ds.totalErrors == 0 && ds.totalWarnings == 0

end Diagnostics

end GridRobot
