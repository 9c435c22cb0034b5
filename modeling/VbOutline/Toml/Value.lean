import VbOutline.Entries

/-!
# TOML values

The values of a TOML document, and laying one table over another: a value of the upper table
replaces the one below it, except that two tables are merged, so that a key that is not set above
keeps its value.
-/

namespace VbOutline

open Text

inductive Toml where
  | string (value : Text)
  | integer (value : Int)
  /-- A number with a fraction or an exponent, as written. -/
  | float (literal : Text)
  | boolean (value : Bool)
  /-- A date, a time or both. -/
  | moment (value : Text)
  | array (items : List Toml)
  | table (entries : List (Text × Toml))
  deriving Repr

namespace Toml

abbrev Table := Entries Toml

mutual

/-- Lays a table over `base`. -/
def merge (base : Table) : List (Text × Toml) → Table
  | [] => base
  | (key, value) :: rest => merge (base.put key (overlay (base.lookup? key) value)) rest

/-- Lays a value over the one that stands below it. -/
def overlay (below : Option Toml) : Toml → Toml
  | table entries =>
    match below with
    | some (table base) => table (merge base entries)
    | _ => table entries
  | value => value

end

/-- What stands in a table at a path of keys. -/
def at? (t : Table) : List Text → Option Toml
  | [] => some (table t)
  | [key] => t.lookup? key
  | key :: path =>
    match t.lookup? key with
    | some (table inner) => at? inner path
    | _ => none

end Toml

end VbOutline
