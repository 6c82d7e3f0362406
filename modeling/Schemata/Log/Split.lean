import Schemata.Log.Basic

/-!
# `Schemata.Log.Split` — records on two channels

Records below a boundary level are reported on the channel for results, the others on the channel for
errors.

## Contents
- `Channel`, `Split`, and `Split.deliver?`, which says where a record goes and how it is written.
- `Split.written`, the texts of several records on both channels.
-/

namespace Schemata.Log

/-- Where records are written. -/
inductive Channel
  | results
  | errors
deriving DecidableEq, Repr

/-- The level from which records are taken if none is set. -/
def inheritedLevel : Int := 30

/-- The least level that either channel takes. -/
def leastLevel : Int := 10

/-- Two channels for records. -/
structure Split where
  /-- The level from which records are taken; zero sets none. -/
  level : Int
  /-- The level from which records are errors, at least the least level. -/
  boundary : Int
  layout : Layout

namespace Split

/-- Two channels with a boundary that is raised to the least level. -/
def make (level boundary : Int) (layout : Layout) : Split := ⟨level, max boundary leastLevel, layout⟩

/-- The level from which records are taken. -/
def threshold (split : Split) : Int := if split.level = 0 then inheritedLevel else split.level

/-- The channel that takes records of a level. -/
def channel? (split : Split) (level : Int) : Option Channel :=
  if level < split.threshold then none
  else if split.boundary ≤ level then some .errors
  else if leastLevel ≤ level then some .results
  else none

/-- The channel of a record and its line there. -/
def deliver? (split : Split) (r : Record) : Option (Channel × String) := do
  let channel ← split.channel? r.level
  return (channel, (← split.layout.line? r) ++ "\n")

/-- What several records write on a channel. -/
def written (split : Split) (channel : Channel) (records : List Record) : String :=
  String.join (records.filterMap fun r =>
    (split.deliver? r).bind fun (c, line) => if c = channel then some line else none)

end Split

end Schemata.Log
