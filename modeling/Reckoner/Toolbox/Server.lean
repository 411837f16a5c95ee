import Reckoner.Program

/-! The server that offers the tools of the calculator to other programs. -/

namespace Reckoner

/-- A tool. -/
inductive Tool
  | ask
  | evaluate
  | history
  | translate
  deriving DecidableEq, Repr

namespace Tool

/-- All tools, in the order of their names. -/
def all : List Tool := [ask, evaluate, history, translate]

/-- The name under which a tool is offered. -/
def name : Tool → Text
  | ask => "rpncalc_ask"
  | evaluate => "rpncalc_evaluate"
  | history => "rpncalc_history"
  | translate => "rpncalc_translate"

end Tool

/-- A server of tools: its name, what it says of itself, and the names of its tools. -/
structure ToolServer where
  name : Text
  instructions : Text
  tools : List Text
  deriving DecidableEq, Repr

namespace ToolServer

/-- The package that a server needs. -/
def package : Text := "fastmcp"

/-- The server of the calculator. -/
def standard : ToolServer where
  name := "rpncalc"
  instructions := "Scientific calculator with natural-language input"
  tools := Tool.all.map Tool.name

/-- The server, if its package is installed. -/
def create : Program ToolServer := do
  if ← Program.hasPackage package then return standard
  .raise (.crash (.missingPackage package))

end ToolServer

end Reckoner
