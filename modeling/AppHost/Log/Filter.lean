import AppHost.Log.Event
import AppHost.Text.Ascii

/-!
# Log filters

Which events are shown. A filter has one rule per target, which covers all parts whose names begin
with it; the longest target that covers an event decides, and what no rule covers is hidden. A
filter is written as a directive: rules with commas between them, each a target with a severity,
or one of the two alone. A rule that cannot be read is left out.
-/

namespace AppHost.Log

/-- The directive for a host whose own events are shown from `level` on. -/
def directive (level : String) : String := s!"http_host={level},tower_http=warn"

/-- The least severity that is shown; nothing is shown without one. -/
abbrev Threshold := Option Level

/-- The number of a threshold: the higher, the more is shown. -/
def thresholds : List Threshold :=
  [none, some .error, some .warn, some .info, some .debug, some .trace]

def Threshold.covers (t : Threshold) (l : Level) : Bool :=
  match t with
  | none => false
  | some least => least.rank ≤ l.rank

/-- A threshold by its number or its name, in which case does not matter. -/
def Threshold.parse? (s : String) : Option Threshold :=
  let cs := s.toList
  let digits := if cs.head? = some '+' then cs.drop 1 else cs
  match Text.decimal? digits with
  | some n => thresholds[n]?
  | none =>
    if Text.sameWord s "off" then some none
    else (Level.all.find? fun l => Text.sameWord s l.name).map some

structure Rule where
  /-- Covers all parts if it is empty. -/
  target : String
  threshold : Threshold
  deriving DecidableEq, Repr

/-- Why a rule cannot be read. -/
inductive RuleError where
  | malformed
  | unknownLevel
  deriving DecidableEq, Repr

def RuleError.message : RuleError → String
  | malformed => "invalid filter directive"
  | unknownLevel =>
    "error parsing level filter: expected one of \"off\", \"error\", \"warn\", \"info\", " ++
      "\"debug\", \"trace\", or a number 0-5"

namespace Rule

/-- Whether a rule may begin with `c`; letters outside ASCII may as well. -/
def isFirst (c : Char) : Bool :=
  c = '-' || c = ':' || c = '_' || c.isAlphanum || 127 < c.toNat

/-- A rule from its text. A target alone shows everything of its parts. A rule with brackets speaks
of spans only, and no event of a host that serves nobody lies in one. -/
def parse (s : String) : Except RuleError (Option Rule) :=
  let cs := s.toList
  let target := cs.takeWhile fun c => c != '=' && c != '['
  let rest := cs.drop target.length
  let name := String.ofList target
  match cs.head?, rest with
  | some '[', _ => .ok none
  | none, _ => .error .malformed
  | some c, rest =>
    if !isFirst c then .error .malformed
    else match rest with
      | [] =>
        match Threshold.parse? name with
        | some t => .ok (some ⟨"", t⟩)
        | none => .ok (some ⟨name, some .trace⟩)
      | '=' :: [] => .ok (some ⟨name, some .trace⟩)
      | '=' :: level =>
        match Threshold.parse? (String.ofList level) with
        | some t => .ok (some ⟨name, t⟩)
        | none => .error .unknownLevel
      | _ => .ok none

def covers (r : Rule) (e : Event) : Bool := r.target.toList.isPrefixOf e.target.toList

end Rule

abbrev Filter := List Rule

namespace Filter

/-- The rules of a directive as they stand, and what is wrong with those that are left out. -/
def parse (directive : String) : Filter × List (String × RuleError) :=
  let texts := ((Text.splitAt ',' directive.toList).map String.ofList).filter (· != "")
  let read := texts.map fun s => (s, Rule.parse s)
  (read.filterMap fun
    | (_, .ok r) => r
    | (_, .error _) => none,
  read.filterMap fun
    | (s, .error e) => some (s, e)
    | (_, .ok _) => none)

/-- Of two rules the one with the longer target; of equal ones the second. -/
def stronger (a b : Rule) : Rule := if a.target.length ≤ b.target.length then b else a

/-- The rule that decides on an event. -/
def rule? (f : Filter) (e : Event) : Option Rule :=
  f.foldl (fun best r => if r.covers e then some (best.elim r (stronger · r)) else best) none

def shows (f : Filter) (e : Event) : Bool :=
  (f.rule? e).any fun r => r.threshold.covers e.level

end Filter

end AppHost.Log
