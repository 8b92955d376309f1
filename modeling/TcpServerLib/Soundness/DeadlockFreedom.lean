import TcpServerLib.Refinement.LockedOperations

/-! # Waiting in a circle

The message queue thread keeps `msgq_mutex` while it processes messages, and a message may have it
join a thread that posts messages itself. A server whose threads join only such threads as have
nothing to post any more does not get stuck.
-/

namespace TcpServerLib.Soundness

open Machine Model Refinement

/-- No threads wait for one another in a circle, and who holds `msgq_mutex` joins no thread that is
blocked in `EnqueMsg`. -/
structure Unstuck (p : ServerProcess) : Prop where
  circle : ¬ serverOrder.Deadlocked p
  joins : ∀ {id other rest next}, p.owner .msgqMutex = some id → p.doing id = .joining other rest →
    p.doing other ≠ .busy (.sync (.lock .msgqMutex) next)

section

variable {p : ServerProcess} {id other : ℕ} {rest next : Op Unit}

theorem waits_joins (joining : p.doing id = .joining other rest) (there : p.doing other ≠ .gone) :
    serverOrder.Waits p id other :=
  .inr ⟨rest, joining, there⟩

theorem waits_mutex (asks : p.doing other = .busy (.sync (.lock .msgqMutex) next))
    (owned : p.owner .msgqMutex = some id) :
    serverOrder.Waits p other id :=
  .inl ⟨_, next, .msgqMutex, asks, rfl, owned⟩

/-- A thread that joins one blocked on its own mutex is in a circle with it. -/
theorem circle_of_joins (owned : p.owner .msgqMutex = some id) (joining : p.doing id = .joining other rest)
    (asks : p.doing other = .busy (.sync (.lock .msgqMutex) next)) : serverOrder.Deadlocked p := by
  have there : p.doing other ≠ .gone := by
    rw [asks]
    nofun
  exact ⟨id, .tail (.single (waits_joins joining there)) (waits_mutex asks owned)⟩

theorem unstuck_of_not_deadlocked (free : ¬ serverOrder.Deadlocked p) : Unstuck p := by
  constructor
  · exact free
  · intro id other rest next owned joining asks
    exact free (circle_of_joins owned joining asks)

end

section

variable {ipAddr : UInt32} {portNo : UInt16}

theorem doing_started (ipAddr : UInt32) (portNo : UInt16) (id : ℕ) :
    (ServerProcess.started ipAddr portNo).doing id = .away ∨
    (ServerProcess.started ipAddr portNo).doing id = .gone := by
  rw [ServerProcess.started]
  dsimp only
  split
  · exact .inl rfl
  · exact .inr rfl

theorem ordered_started : serverOrder.Ordered (ServerProcess.started ipAddr portNo) := by
  constructor
  · intro l id
    exact iff_of_false nofun List.not_mem_nil
  · intro id
    exact List.nodup_nil
  · intro id
    rcases doing_started ipAddr portNo id with away | gone
    · rw [away]
      rfl
    · rw [gone]
      rfl
  · intro id unborn
    exact if_neg (Nat.not_lt.mpr unborn)
  · intro t id named
    cases t <;> cases named
    · exact ⟨Nat.lt_of_sub_eq_succ rfl, rfl⟩
    · exact ⟨Nat.lt_of_sub_eq_succ rfl, rfl⟩
  · intro id other rest joining
    rcases doing_started ipAddr portNo id with away | gone
    · cases away.symm.trans joining
    · cases gone.symm.trans joining

/-- Whatever the threads of a server do, they do not wait in a circle, if a thread that holds a lock
joins only threads that have no lock to ask for and no thread to join any more. -/
theorem unstuck {turns : List (Turn ThreadText)} {q : ServerProcess}
    (path : Path (Guarded (Process.Step ServerProcess.texts) serverOrder.Patient)
      (ServerProcess.started ipAddr portNo) turns q) :
    Unstuck q :=
  unstuck_of_not_deadlocked (Discipline.not_deadlocked_of_path rfl texts_obey path ordered_started)

end

/-- A thread that holds a lock joins only threads that wait between two of their texts. -/
def JoinsAway (p : ServerProcess) : Turn ThreadText → Prop
  | .go id =>
    match p.doing id with
    | .busy (.sync (.cancelJoin t) _) =>
      match p.designated t with
      | some other =>
        match p.doing other with
        | .away => True
        | _ => p.held id = []
      | none => True
    | _ => True
  | _ => True

instance (p : ServerProcess) (turn : Turn ThreadText) : Decidable (JoinsAway p turn) := by
  unfold JoinsAway
  repeat' split
  all_goals infer_instance

theorem patient_of_joinsAway {p : ServerProcess} {turn : Turn ThreadText} (joins : JoinsAway p turn) :
    serverOrder.Patient p turn := by
  cases turn with
  | go id =>
    intro action next t other busy kind names
    cases action <;> cases kind
    rw [JoinsAway] at joins
    simp only [busy, names] at joins
    split at joins
    · next away =>
      right
      rw [away]
      trivial
    · exact .inl joins
  | _ => trivial

/-- A peer is accepted, and the message queue thread comes to the join of the service thread. -/
def restartTurns : List (Turn ThreadText) :=
  .start 3 (.event (.accept 8 8)) :: List.replicate 8 (.go 3) ++ .start 1 (.messages [none]) ::
    List.replicate 14 (.go 1)

/-- Thread 1 holds the mutex and joins thread 2. -/
def inJoin (p : ServerProcess) : Bool :=
  p.owner .msgqMutex == some 1 &&
    match p.doing 1 with
    | .joining 2 _ => true
    | _ => false

theorem unstuck_restart : ∃ q, Path (Guarded (Process.Step ServerProcess.texts) serverOrder.Patient)
    (ServerProcess.started 1 1) restartTurns q ∧ inJoin q = true ∧ Unstuck q := by
  have reached : (replay (Process.takeTurn ServerProcess.texts) JoinsAway (ServerProcess.started 1 1)
      restartTurns).any
      inJoin = true := by
    decide +kernel
  obtain ⟨q, ran, joining⟩ := (Option.any_eq_true _ _).mp reached
  have path : Path (Guarded (Process.Step ServerProcess.texts) serverOrder.Patient) (ServerProcess.started 1 1)
      restartTurns q := (path_of_replay ran).mono fun step =>
        ⟨patient_of_joinsAway step.1, Process.takeTurn_step step.2⟩
  exact ⟨q, path, joining, unstuck path⟩

/-- A peer has been accepted and its service thread is about to post that it has left, when the
message of another peer is processed. -/
def circleTurns : List (Turn ThreadText) :=
  restartTurns ++ .die 2 :: List.replicate 30 (.go 1) ++
  .start 3 (.event (.accept 9 9)) :: List.replicate 8 (.go 3) ++
  .start 4 (.event (.select [0])) :: List.replicate 2 (.go 4) ++
  .start 4 (.event (.visit (.bytes []))) :: List.replicate 7 (.go 4) ++
  .start 1 (.messages [none]) :: List.replicate 15 (.go 1)

/-- Thread 1 holds the mutex and joins thread 4, which asks for it. -/
def inCircle (p : ServerProcess) : Bool :=
  p.owner .msgqMutex == some 1 &&
    match p.doing 1, p.doing 4 with
    | .joining 4 _, .busy (.sync (.lock .msgqMutex) _) => true
    | _, _ => false

theorem circle_of_inCircle {p : ServerProcess} (circle : inCircle p = true) :
    ∃ rest next, p.owner .msgqMutex = some 1 ∧ p.doing 1 = .joining 4 rest ∧
      p.doing 4 = .busy (.sync (.lock .msgqMutex) next) := by
  rw [inCircle, Bool.and_eq_true] at circle
  obtain ⟨owned, waits⟩ := circle
  split at waits
  · next joining asks => exact ⟨_, _, eq_of_beq owned, joining, asks⟩
  · cases waits

theorem joinsPoster_circle :
    ¬ ∀ ipAddr portNo turns q, Path (Process.Step ServerProcess.texts)
    (ServerProcess.started ipAddr portNo) turns q →
      Unstuck q := by
  intro always
  have reached : (Process.takeTurns ServerProcess.texts circleTurns (ServerProcess.started 1 1)).any
      inCircle = true := by
    decide +kernel
  obtain ⟨q, took, circle⟩ := (Option.any_eq_true _ _).mp reached
  obtain ⟨_, _, owned, joining, asks⟩ := circle_of_inCircle circle
  exact (always _ _ _ _ (Process.takeTurns_path took)).joins owned joining asks

end TcpServerLib.Soundness
