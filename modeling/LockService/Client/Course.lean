import LockService.Client.Exchange

/-!
# Operations in one go

In a course every operation is carried out to its end before anything else happens, so going live, teardown and closing
are single steps there. Supervisors take their turns, requests come and go, and owners close connections or give up
sessions at any point in between. A course remembers the moves that were made.
-/

namespace LockService

namespace Move

/-- How many moves may come of a move, itself included. -/
def weight : Move → Nat
  | takeStored => 7
  | markTornDown _ => 6
  | _ => 1

def weights : List Move → Nat
  | [] => 0
  | m :: rest => m.weight + weights rest

theorem weights_cons (m : Move) (rest : List Move) : weights (m :: rest) = m.weight + weights rest := rfl

theorem weights_append (moves rest : List Move) : weights (moves ++ rest) = weights moves + weights rest := by
  induction moves with
  | nil => exact (Nat.zero_add _).symm
  | cons m moves ih => rw [List.cons_append, weights_cons, weights_cons, ih, Nat.add_assoc]

/-- A move weighs more than all that it leads to. -/
theorem weights_make_lt (c : Client) (i : Nat) (m : Move) : weights (m.make c i).1 < m.weight := by
  cases m with
  | takeStored =>
    simp only [make]
    split <;> simp [teardown, weights, weight]
  | markTornDown s =>
    simp only [make]
    split <;> simp [weights, weight]
  | _ => simp [make, weights, weight]

/-- Makes moves one after the other, each followed at once by what it leads to, but at most `n` of them. The moves made
are returned in order. -/
def makeUpTo (c : Client) (i : Nat) : Nat → List Move → List Move × Client
  | n + 1, m :: rest =>
    let (made, c') := makeUpTo (m.make c i).2 i n ((m.make c i).1 ++ rest)
    (m :: made, c')
  | _, _ => ([], c)

theorem makeUpTo_of_le (i : Nat) {n : Nat} : ∀ {n' : Nat} {moves : List Move} (c : Client), weights moves ≤ n →
    weights moves ≤ n' → makeUpTo c i n moves = makeUpTo c i n' moves := by
  induction n with
  | zero =>
    intro n' moves c hn hn'
    cases moves with
    | nil => cases n' <;> rfl
    | cons m rest =>
      have hm := weights_make_lt c i m
      rw [weights_cons] at hn
      omega
  | succ n ih =>
    intro n' moves c hn hn'
    cases moves with
    | nil => cases n' <;> rfl
    | cons m rest =>
      have hm := weights_make_lt c i m
      rw [weights_cons] at hn hn'
      cases n' with
      | zero => omega
      | succ n' =>
        have hle : weights ((m.make c i).1 ++ rest) ≤ n ∧ weights ((m.make c i).1 ++ rest) ≤ n' := by
          rw [weights_append]
          omega
        simp only [makeUpTo, ih (m.make c i).2 hle.1 hle.2]

/-- Makes moves one after the other, each followed at once by what it leads to, until none is left. -/
def carryOut (c : Client) (i : Nat) (moves : List Move) : List Move × Client := makeUpTo c i (weights moves) moves

theorem carryOut_cons (c : Client) (i : Nat) (m : Move) (rest : List Move) : carryOut c i (m :: rest) =
    (m :: (carryOut (m.make c i).2 i ((m.make c i).1 ++ rest)).1,
      (carryOut (m.make c i).2 i ((m.make c i).1 ++ rest)).2) := by
  have hm := weights_make_lt c i m
  obtain ⟨n, hn⟩ : ∃ n, weights (m :: rest) = n + 1 := by
    refine ⟨weights (m :: rest) - 1, ?_⟩
    rw [weights_cons]
    omega
  have hle : weights ((m.make c i).1 ++ rest) ≤ n := by
    rw [weights_cons] at hn
    rw [weights_append]
    omega
  rw [carryOut, hn, carryOut, ← makeUpTo_of_le i (m.make c i).2 hle (Nat.le_refl _)]
  rfl

/-- The session with which a connection is reported live. -/
def livened? : Move → Option SessionId
  | joinLive s => some s
  | _ => none

/-- Whether a move drains a session or reports its loss. -/
def isLoss : Move → Bool
  | drain _ | leaveLive => true
  | _ => false

end Move

/-- Carries out everything under way, one operation after the other. -/
def Interplay.finish (p : Interplay) : List (Nat × Move) × Client :=
  p.underway.foldl (fun (made, c) (i, moves) =>
    let (more, c) := Move.carryOut c i moves
    (made ++ more.map (i, ·), c)) ([], p.client)

/-- A client none of whose operations is under way, the requests issued, and the moves made so far, each with its
connection. -/
structure Course where
  client : Client
  sent : List Sent := []
  made : List (Nat × Move) := []

namespace Course

def exchange (x : Course) : Exchange := { play := { client := x.client }, sent := x.sent }

/-- Lets an event happen, and carries out the operation that begins with it. -/
def step (x : Course) (e : Exchange.Event) : Course :=
  let y := x.exchange.step e
  let (made, client) := y.play.finish
  { client, sent := y.sent, made := x.made ++ made }

def run (x : Course) (events : List Exchange.Event) : Course := events.foldl step x

/-- A course in which nothing has happened. -/
def fresh (c : Client) : Course := { client := c }

/-- The moves made on a connection, in order. -/
def movesOn (x : Course) (i : Nat) : List Move := x.made.filterMap fun (j, m) => if j = i then some m else none

/-- The sessions that went live on a connection, in order. -/
def wentLive (x : Course) (i : Nat) : List SessionId := (x.movesOn i).filterMap (·.livened?)

/-- What was drained on a connection, and the reports of a loss, in order. -/
def losses (x : Course) (i : Nat) : List Move := (x.movesOn i).filter (·.isLoss)

end Course

end LockService
