import MerlinBridge.Bridge.Fault
import MerlinBridge.Console.Flags
import MerlinBridge.Disk
import MerlinBridge.QuickFix
import MerlinBridge.Settings.Environment
import MerlinBridge.Settings.File

/-!
# Why a command fails

A command that is used in the wrong way fails with a status of its own, and the usage is shown.
-/

namespace MerlinBridge

namespace Console

inductive ConfigError where
  | file (e : Config.LoadError)
  | environment (e : Config.EnvironmentError)
  | invalid (e : Config.Error)
deriving DecidableEq

namespace ConfigError

def message : ConfigError → Bytes
  | file e => e.message
  | environment e => e.message
  | invalid e => "invalid config: " ++ e.message

end ConfigError

inductive Error where
  | flags (e : Flags.Error)
  | missingCommand
  | unknownCommand (name : Bytes)
  | missingFile
  | missingPosition (command : Bytes)
  | badPosition (written : Bytes)
  | config (e : ConfigError)
  | logPattern (pattern : Bytes)
  | disk (e : Disk.Error)
  | text (e : Text.Error)
  /-- A request failed; the path of its document is told if there are several. -/
  | request (path : Option Bytes) (fault : Fault)
  | noQuickFix (choice position : Bytes) (available : Nat)
  | quickFix (e : QuickFix.Error)
deriving DecidableEq

namespace Error

def message? : Error → Option Bytes
  | flags e => e.message?
  | missingCommand => some "missing command"
  | unknownCommand name => some ("unknown command " ++ Quoted.quote name)
  | missingFile => some "errors needs at least one FILE"
  | missingPosition command => some (command ++ " needs FILE LINE:COL")
  | badPosition written => some ("position " ++ Quoted.quote written ++ " is not LINE:COL")
  | config e => some e.message
  | logPattern pattern =>
    some ("failed to create log file: createtemp " ++ pattern ++
      ": pattern contains path separator")
  | disk e => some e.message
  | text e => some e.message
  | request none fault => some fault.message
  | request (some path) fault => some (path ++ ": " ++ fault.message)
  | noQuickFix choice position available =>
    some ("no quick fix " ++ Quoted.quote choice ++ " at " ++ position ++ "; " ++
      Decimal.ofNat available ++ " available")
  | quickFix e => some e.message

def isMisuse : Error → Bool
  | flags _ => true
  | missingCommand => true
  | unknownCommand _ => true
  | missingFile => true
  | missingPosition _ => true
  | badPosition _ => true
  | _ => false

def report (e : Error) : Bytes :=
  let line : Bytes := (e.message?.map (· ++ ("\n" : Bytes))).getD []
  if e.isMisuse then line ++ Flags.usage else line

def status (e : Error) : Nat :=
  if e.isMisuse then 2 else 1

end Error

end Console

end MerlinBridge
