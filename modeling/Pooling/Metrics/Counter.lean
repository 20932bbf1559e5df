/-!
Counters that a pool reports its live resources to.
-/

namespace Pooling

inductive CounterKind where
  | counting
  | silent
  deriving DecidableEq

/-- A counter: how often it was told of one more resource and of one less. -/
structure Counter where
  kind : CounterKind
  ups : Nat := 0
  downs : Nat := 0
  deriving DecidableEq

namespace Counter

def silent : Counter := { kind := .silent }

def up (counter : Counter) : Counter := { counter with ups := counter.ups + 1 }

def down (counter : Counter) : Counter := { counter with downs := counter.downs + 1 }

/-- The ups less the downs. -/
def balance (counter : Counter) : Int := counter.ups - counter.downs

/-- What a counter shows: its balance as far as a word of 64 bits goes, or nothing. -/
def value (counter : Counter) : Int64 :=
  match counter.kind with
  | .counting => Int64.ofInt counter.balance
  | .silent => 0

@[simp] theorem balance_up (counter : Counter) : counter.up.balance = counter.balance + 1 := by
  simp only [balance, up]
  omega

@[simp] theorem balance_down (counter : Counter) :
    counter.down.balance = counter.balance - 1 := by
  simp only [balance, down]
  omega

end Counter

end Pooling
