import NetImitate.Library.Narrow

/-!
# `Threadpoll`: the loops of the I/O threads

* `start` : one loop for each thread; `getNextLoop` : the loops in turn, `next` counting the calls;
* `index_lt` : the index into `loopList` is in range;
* `getNextLoop_mem` : where there are loops, one of them is chosen.
-/

namespace NetImitate

structure Threadpoll (Loop : Type*) where
  loopList : List Loop
  /-- An `int`. -/
  next : Int
  numOfThread : Int
  baseLoop : Loop

namespace Threadpoll
variable {Loop : Type*}

def new (baseLoop : Loop) : Threadpoll Loop where
  loopList := []
  next := 0
  numOfThread := 0
  baseLoop := baseLoop

def setThreadNums (p : Threadpoll Loop) (nums : Int) : Threadpoll Loop := { p with numOfThread := nums }

/-- `Start`, `startLoop i` being what `StartLoop` of the `i`-th thread returns. -/
def start (p : Threadpoll Loop) (startLoop : Nat → Loop) : Threadpoll Loop :=
  { p with loopList := p.loopList ++ (List.range p.numOfThread.toNat).map startLoop }

/-- `next % loopList.size()`, for which `next` becomes a `size_t`. -/
def index (p : Threadpoll Loop) : Nat := sizeT p.next % p.loopList.length

theorem index_lt {p : Threadpoll Loop} (h : p.loopList ≠ []) : p.index < p.loopList.length :=
  Nat.mod_lt _ (List.length_pos_iff.mpr h)

def getNextLoop (p : Threadpoll Loop) : Loop × Threadpoll Loop :=
  if h : p.loopList = [] then (p.baseLoop, p)
  else (p.loopList.get ⟨p.index, index_lt h⟩, { p with next := int32 (p.next + 1) })

theorem getNextLoop_mem {p : Threadpoll Loop} (h : p.loopList ≠ []) : p.getNextLoop.1 ∈ p.loopList := by
  rw [getNextLoop, dif_neg h]
  exact List.get_mem _ _

theorem loopList_getNextLoop (p : Threadpoll Loop) : p.getNextLoop.2.loopList = p.loopList := by
  unfold getNextLoop
  split <;> rfl

end Threadpoll

end NetImitate
