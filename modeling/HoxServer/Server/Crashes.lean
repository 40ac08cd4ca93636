/-
HoxServer.Server.Crashes — which calls of a table crash the server.

The tables of a server have lawful referees (`lawful_of_reachable`), so
that a call of one crashes exactly if it does not find the seats that it
reads (`returns_callTable`). A player who leaves all of his tables leaves
one after the other. That he has left one does not matter to the next
(`returns_leaveAllTables`).
-/
import HoxServer.Server.Ratings
import HoxServer.Table.Seats

namespace HoxServer

namespace Server

open Lib

variable {s s' : Server} {i : Input} {t : TableRef} {op : TableOp} {player : PlayerRef}

/-- Every table has a lawful referee. -/
def Lawful (s : Server) : Prop := ∀ t, (s.table t).referee.Lawful

theorem lawful_of_reachable {db : Bytes → Option PlayerRow} (h : (machine db).Reachable s) :
    s.Lawful := fun t => ((reachable_kept h).replays t).lawful

/-- The call of a table finds the seats that it reads. -/
def FindsSeats (s : Server) (i : Input) (t : TableRef) (op : TableOp) : Prop :=
  (s.world t).FindsSeats i.now op

theorem returns_callTable_iff :
    Returns (s.callTable i t op) ↔ Returns ((s.world t).call i.now op) := by
  unfold callTable
  cases (s.world t).call i.now op <;> simp

theorem returns_callTable (hl : s.Lawful) :
    Returns (s.callTable i t op) ↔ s.FindsSeats i t op :=
  returns_callTable_iff.trans (World.call_returns_iff (hl t))

/-! ## Leaving -/

theorem returns_leaveTable :
    Returns (s.leaveTable i player t) ↔ s.FindsSeats i t (.onLeaveFromPlayer player) := by
  rw [leaveTable, returns_bind_of fun _ => returns_ok _, returns_callTable_iff, FindsSeats,
    World.findsSeats_leave]
  exact returns_map.trans World.returns_onLeaveFromPlayer

theorem leaveTable_eq_ok (h : s.leaveTable i player t = .ok s') :
    ∃ w', (s.world t).onLeaveFromPlayer player = .ok w' ∧
      s'.table = Function.update s.table t w'.table ∧ s'.players = w'.players := by
  obtain ⟨⟨s₁, res⟩, hcall, hs'⟩ := bind_eq_ok.mp h
  cases hs'
  unfold callTable at hcall
  split at hcall
  · cases hcall
  · rename_i w res' hleave
    cases hcall
    obtain ⟨w', hw, he⟩ := map_eq_ok.mp hleave
    cases he
    exact ⟨w, hw, rfl, rfl⟩

/-- A table that has been left ends no game when it is left again, and
the others are as they were. -/
theorem findsSeats_leaveTable (h : s.leaveTable i player t = .ok s') (t' : TableRef) :
    s'.FindsSeats i t' (.onLeaveFromPlayer player) ↔
      s.FindsSeats i t' (.onLeaveFromPlayer player) := by
  obtain ⟨w', hw, htable, hplayers⟩ := leaveTable_eq_ok h
  have htypes : ∀ p, (s'.players p).type = (s.players p).type := by
    rw [hplayers]
    exact World.type_onLeaveFromPlayer hw
  unfold FindsSeats
  by_cases ht : t' = t
  · subst ht
    refine iff_of_true (World.findsSeats_leave.mpr fun hends => ?_) (returns_leaveTable.mp ⟨s', h⟩)
    have hworld : (s'.world t').table = w'.table := by simp [world, htable]
    have hnot : ¬ w'.table.Finishes w'.idOf i.now (.onLeaveFromPlayer player) :=
      World.not_finishes_of_left hw
    rw [hworld] at hends
    exact absurd hends hnot
  · have hworld : (s'.world t').table = (s.world t').table := by simp [world, htable, ht]
    have hread : (s'.world t').SeatsRead ↔ (s.world t').SeatsRead :=
      World.SeatsRead.of_same (by rw [hworld]) (by rw [hworld]) htypes
    rw [World.findsSeats_leave, World.findsSeats_leave, hread, hworld]
    exact Iff.rfl

/-- **A player leaves all of his tables** without a crash exactly if each
finds the seats that it reads. -/
theorem returns_leaveAllTables : Returns (s.leaveAllTables i player) ↔
    ∀ t ∈ s.tablesOf player, s.FindsSeats i t (.onLeaveFromPlayer player) :=
  returns_foldlM (fun _ _ => returns_leaveTable) (fun _ _ _ t' h => findsSeats_leaveTable h t') s _

end Server

end HoxServer
