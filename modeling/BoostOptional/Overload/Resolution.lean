import Mathlib.Tactic.Common

/-!
Overload resolution for functions of one argument. A viable candidate has the implicit conversion
sequence of its argument, and a template among them has a place in the order of specialization.
The result is the candidate that is better than every other, and there is none when the call is
ambiguous.
-/

namespace Overload

inductive Rank where
  | exact | conversion | userDefined
  deriving DecidableEq, Repr

def Rank.toNat : Rank → Nat
  | .exact => 0
  | .conversion => 1
  | .userDefined => 2

/-- An implicit conversion sequence to a reference parameter. -/
structure Sequence where
  rank : Rank
  /-- The parameter is an rvalue reference bound to an rvalue. -/
  bindsRvalue : Bool
  /-- The parameter refers to a more cv-qualified type than the argument has. -/
  addsConst : Bool
  deriving DecidableEq, Repr

def Sequence.better (s t : Sequence) : Bool :=
  s.rank.toNat < t.rank.toNat ||
    s.rank == t.rank && (s.bindsRvalue && !t.bindsRvalue ||
      s.bindsRvalue == t.bindsRvalue && (!s.addsConst && t.addsConst))

variable {ι : Type}

structure Candidate (ι : Type) where
  function : ι
  sequence : Sequence
  /-- How specialized the function template is, `none` for a function that is no template. -/
  template : Option Nat
  deriving DecidableEq, Repr

/-- Of two candidates with indistinguishable conversion sequences, a function that is no template
is better than a template, and the more specialized of two templates is better. -/
def preferred : Option Nat → Option Nat → Bool
  | none, some _ => true
  | some n, some m => m < n
  | _, none => false

def Candidate.better (c d : Candidate ι) : Bool :=
  c.sequence.better d.sequence || !d.sequence.better c.sequence && preferred c.template d.template

variable [DecidableEq ι]

def best (candidates : List (Candidate ι)) (c : Candidate ι) : Bool :=
  candidates.all fun d => d.function == c.function || c.better d

def resolve (candidates : List (Candidate ι)) : Option ι :=
  (candidates.find? (best candidates)).map Candidate.function

end Overload
