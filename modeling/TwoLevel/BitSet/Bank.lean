import TwoLevel.BitSet.Cursor

/-
  This file defines numbered collections of bit sets and the
  commands that act on them. The sets begin empty or full. A
  command acts on one set, may look at another one, and is
  answered by a reply.

  Key definitions include:
    * `Bank`
    * `Bank.Origin`
    * `Bank.create`
    * `Bank.Command`
    * `Bank.Reply`
    * `Bank.step`
    * `Bank.run`
-/

namespace TwoLevel

/- Bit sets, numbered from zero. -/
structure Bank where
  sets : List BitSet
  deriving DecidableEq

namespace Bank

------------------------------------------------------------
-- New Sets
------------------------------------------------------------

/- How a set of a given width begins. -/
inductive Origin where
  | empty (width : Nat)
  | full (width : Nat)
  deriving DecidableEq, Repr

/- The set that begins in a given way. -/
def Origin.create : Origin → BitSet
  | .empty width => BitSet.empty width
  | .full width => BitSet.full width

/- A collection of new sets. -/
def create
    (origins : List Origin) : Bank where
  sets := origins.map Origin.create

------------------------------------------------------------
-- Commands and Replies
------------------------------------------------------------

/- What can be asked of a set. Other sets go by number. -/
inductive Command where
  | insert (index : Nat)
  | erase (index : Nat)
  | contains (index : Nat)
  | extend (indices : List Nat)
  | retain (keep : Nat → Bool)
  | interSize (other : Nat)
  | diff (other : Nat)
  | copy (other : Nat)
  | equals (other : Nat)
  | size
  | isEmpty
  | first
  | members

/- What a command is answered by. -/
inductive Reply where
  | done
  | truth (value : Bool)
  | number (value : Nat)
  | index (value? : Option Nat)
  | indices (values : List Nat)
  | refused (fault : OutOfRange)
  | absent
  deriving DecidableEq, Repr

------------------------------------------------------------
-- Effects
------------------------------------------------------------

/- The effect of a command on a set, given all the sets. -/
def apply
    (bank : Bank)
    (set : BitSet) : Command → Reply × BitSet
  | .insert index =>
      match set.insert index with
      | .ok (after, fresh) => (.truth fresh, after)
      | .error fault => (.refused fault, set)
  | .erase index =>
      let (after, present) := set.erase index
      (.truth present, after)
  | .contains index => (.truth (set.contains index), set)
  | .extend indices =>
      match set.extend indices with
      | (after, none) => (.done, after)
      | (after, some fault) => (.refused fault, after)
  | .retain keep => (.done, set.retain keep)
  | .interSize other =>
      match bank.sets[other]? with
      | some second => (.number (set.interSize second), set)
      | none => (.absent, set)
  | .diff other =>
      match bank.sets[other]? with
      | some second => (.done, set.diff second)
      | none => (.absent, set)
  | .copy other =>
      match bank.sets[other]? with
      | some second => (.done, second)
      | none => (.absent, set)
  | .equals other =>
      match bank.sets[other]? with
      | some second => (.truth (decide (set = second)), set)
      | none => (.absent, set)
  | .size => (.number set.size, set)
  | .isEmpty => (.truth set.isEmpty, set)
  | .first => (.index (BitSet.Cursor.ofSet set).next.1, set)
  | .members => (.indices set.members, set)

/- Give a command to the set of the given number. -/
def step
    (bank : Bank)
    (target : Nat)
    (command : Command) : Reply × Bank :=
  match bank.sets[target]? with
  | none => (.absent, bank)
  | some set =>
      let (reply, after) := bank.apply set command
      (reply, { sets := bank.sets.set target after })

/- Give commands one after the other. -/
def run
    (bank : Bank) :
    List (Nat × Command) → List Reply × Bank
  | [] => ([], bank)
  | (target, command) :: rest =>
      let (reply, after) := bank.step target command
      let (replies, last) := after.run rest
      (reply :: replies, last)

end Bank

end TwoLevel
