import Mathlib.Data.Int.Notation
import TcpServerLib.Machine.DoublyLinked

/-! # The links of the glue threads

`glthread.cpp` works on nodes with a left and a right link, which lie in the structures that are to be
listed. Here the memory of all these nodes is one family of links, and a function of the source gives the
links it leaves behind. A walk has no result if it needs more steps than it is given.
-/

namespace TcpServerLib.Model.GlthreadLinks

open Machine

variable {ι : Type*} [DecidableEq ι]

def setLeft (links : Links ι) (glthread : ι) (left : Option ι) : Links ι :=
  { links with left := Function.update links.left glthread left }

def setRight (links : Links ι) (glthread : ι) (right : Option ι) : Links ι :=
  { links with right := Function.update links.right glthread right }

def initGlthread (links : Links ι) (glthread : ι) : Links ι :=
  setRight (setLeft links glthread none) glthread none

def glthreadAddNext (links : Links ι) (currGlthread newGlthread : ι) : Links ι :=
  match links.right currGlthread with
  | none => setLeft (setRight links currGlthread (some newGlthread)) newGlthread (some currGlthread)
  | some temp =>
    let links := setRight links currGlthread (some newGlthread)
    let links := setLeft links newGlthread (some currGlthread)
    let links := setRight links newGlthread (some temp)
    setLeft links temp (some newGlthread)

def glthreadAddBefore (links : Links ι) (currGlthread newGlthread : ι) : Links ι :=
  match links.left currGlthread with
  | none =>
    let links := setLeft links newGlthread none
    let links := setRight links newGlthread (some currGlthread)
    setLeft links currGlthread (some newGlthread)
  | some temp =>
    let links := setRight links temp (some newGlthread)
    let links := setLeft links newGlthread (some temp)
    let links := setRight links newGlthread (some currGlthread)
    setLeft links currGlthread (some newGlthread)

def removeGlthread (links : Links ι) (currGlthread : ι) : Links ι :=
  match links.left currGlthread, links.right currGlthread with
  | none, some right => setRight (setLeft links right none) currGlthread none
  | none, none => links
  | some left, none => setLeft (setRight links left none) currGlthread none
  | some left, some right =>
    let links := setRight links left (some right)
    let links := setLeft links right (some left)
    let links := setLeft links currGlthread none
    setRight links currGlthread none

/-- `ITERATE_GLTHREAD_BEGIN`, from a node on: the next one is read before the body is run. -/
def iterateGlthread {σ : Type*} (right : σ → ι → Option ι) (body : σ → ι → σ) :
    ℕ → Option ι → σ → Option σ
  | _, none, s => some s
  | 0, some _, _ => none
  | steps + 1, some glthreadptr, s => iterateGlthread right body steps (right s glthreadptr) (body s glthreadptr)

def deleteGlthreadList (steps : ℕ) (links : Links ι) (glthreadHead : ι) : Option (Links ι) :=
  iterateGlthread Links.right removeGlthread steps (links.right glthreadHead) links

def glthreadAddLast (steps : ℕ) (links : Links ι) (glthreadHead newGlthread : ι) : Option (Links ι) := do
  let prevglthreadptr ← iterateGlthread (fun _ => links.right) (fun _ glthreadptr => some glthreadptr) steps
    (links.right glthreadHead) none
  match prevglthreadptr with
  | some prevglthreadptr => some (glthreadAddNext links prevglthreadptr newGlthread)
  | none => some (glthreadAddNext links glthreadHead newGlthread)

def dequeueGlthreadFirst (links : Links ι) (baseGlthread : ι) : Option ι × Links ι :=
  match links.right baseGlthread with
  | none => (none, links)
  | some temp => (some temp, removeGlthread links temp)

/-- `IS_GLTHREAD_LIST_EMPTY` -/
def isGlthreadListEmpty (links : Links ι) (glthreadptr : ι) : Bool :=
  (links.right glthreadptr).isNone && (links.left glthreadptr).isNone

/-- The loop of `glthread_priority_insert`, which leaves with the predecessor it has found. At the end of the
list there is one, or the null pointer is followed. -/
def insertBeforeGreater (compFn : ι → ι → ℤ) (links : Links ι) (glthreadHead glthread : ι) :
    ℕ → Option ι → Option ι → Option (Links ι)
  | _, none, prev => prev.map fun prev => glthreadAddNext links prev glthread
  | 0, some _, _ => none
  | steps + 1, some curr, prev =>
    if compFn glthread curr ≠ -1 then
      insertBeforeGreater compFn links glthreadHead glthread steps (links.right curr) (some curr)
    else some (glthreadAddNext links (prev.getD glthreadHead) glthread)

def glthreadPriorityInsert (compFn : ι → ι → ℤ) (steps : ℕ) (links : Links ι)
    (glthreadHead glthread : ι) : Option (Links ι) :=
  let links := initGlthread links glthread
  if isGlthreadListEmpty links glthreadHead then some (glthreadAddNext links glthreadHead glthread)
  else
    match links.right glthreadHead with
    | none => insertBeforeGreater compFn links glthreadHead glthread steps none none
    | some first =>
      if links.right first = none then
        if compFn glthread first = -1 then some (glthreadAddNext links glthreadHead glthread)
        else some (glthreadAddNext links first glthread)
      else insertBeforeGreater compFn links glthreadHead glthread steps (some first) none

end TcpServerLib.Model.GlthreadLinks
