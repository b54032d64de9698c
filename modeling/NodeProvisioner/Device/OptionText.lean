import NodeProvisioner.KeyMap
import NodeProvisioner.Text.Blank
import NodeProvisioner.Text.Cut

/-! The comma-separated form in which the hypervisor writes the settings of a device: an optional
value that stands first and has no key, then `key=value` options and bare keys. -/
namespace NodeProvisioner

structure OptionText where
  head : Option String := none
  /-- A bare key has the empty value. -/
  options : KeyMap String String := ∅
  deriving DecidableEq

namespace OptionText

def option (part : String) : String × String := (Text.cut? '=' part).getD (part, "")

/-- A part without a key; only the first part of a text may stand for itself. -/
def isHead (part : String) : Bool := !part.isEmpty && (Text.cut? '=' part).isNone

def parts (s : String) : List String := (Text.pieces ',' s).map Text.trim

def optionsOf (parts : List String) : KeyMap String String :=
  .ofList ((parts.filter (!·.isEmpty)).map option)

/-- Reads any text. The last value of a key counts. -/
def parse (s : String) : OptionText :=
  match parts s with
  | [] => {}
  | first :: rest =>
    if isHead first then { head := some first, options := optionsOf rest }
    else { options := optionsOf (first :: rest) }

def get? (t : OptionText) (key : String) : Option String := t.options.get? key

def flag (t : OptionText) (key : String) : Bool :=
  match t.get? key with
  | some v => v == "1" || v == "on" || v == "true"
  | none => false

def written (key : String) : Option String → List String
  | none => []
  | some v => [key ++ "=" ++ v]

def writtenFlag (key : String) (on : Bool) : List String := if on then [key ++ "=1"] else []

def join (parts : List String) : String := String.intercalate "," parts

end OptionText
end NodeProvisioner
