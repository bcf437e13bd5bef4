import OneShot.Assoc
import OneShot.Settings.Fault
import OneShot.Text.Blank

/-!
# The environment

Settings come from named variables.  A variable that is not there and a blank
one are alike: the setting is not stated.  Numbers may have blanks around them.
-/

namespace OneShot

open OneShot.Decimal

/-- The variables that are set. -/
abbrev Environment := List (String × String)

namespace Environment

def value? (env : Environment) (name : String) : Option String :=
  Assoc.get? env name

/-- The value of a variable that is not empty. -/
def filled? (env : Environment) (name : String) : Option String :=
  (env.value? name).filter fun value => !value.isEmpty

/-- The value of a variable that is not blank. -/
def notBlank? (env : Environment) (name : String) : Option String :=
  (env.value? name).filter fun value => !Text.isBlankText value

/-- What a variable states, without the blanks around it. -/
def stated? (env : Environment) (name : String) : Option String :=
  (env.notBlank? name).map Text.trim

/-- The values of variables that must all be stated, as they are. -/
def required (env : Environment) (names : List String) :
    Except SettingsFault (List (String × String)) :=
  match names.filter fun name => (env.notBlank? name).isNone with
  | [] => .ok (Assoc.ofList (names.filterMap fun name => (env.notBlank? name).map (name, ·)))
  | missing => .error (.missing missing)

def atLeast (name : String) (least : Option Quantity) (found : Quantity) :
    Except SettingsFault Unit :=
  match least with
  | some least => if found.below least then .error (.tooSmall name least found) else .ok ()
  | none => .ok ()

def integer? (env : Environment) (name : String) (least : Option Quantity := none) :
    Except SettingsFault (Option Int) :=
  match env.stated? name with
  | none => .ok none
  | some raw =>
      match readInteger? raw with
      | none => .error (.notInteger name raw)
      | some value => (atLeast name least (.whole value)).map fun _ => some value

def number? (env : Environment) (name : String) (least : Option Quantity := none) :
    Except SettingsFault (Option Float) :=
  match env.stated? name with
  | none => .ok none
  | some raw =>
      match readFloat? raw with
      | none => .error (.notNumber name raw)
      | some value => (atLeast name least (.real value)).map fun _ => some value

end Environment

end OneShot
