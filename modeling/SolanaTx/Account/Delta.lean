import SolanaTx.Account.Snapshot
import SolanaTx.Decimal
import SolanaTx.Fault

/-!
# Account deltas

What a transaction has done to an account. Snapshots exist before and after the
whole transaction only, so there is one delta for an account.
-/

namespace SolanaTx

/-- An account before and after, one of which may not exist. -/
inductive Transition where
  | changed (pre post : AccountSnapshot)
  | created (post : AccountSnapshot)
  | closed (pre : AccountSnapshot)

structure AccountDelta where
  pubkey : Pubkey
  transition : Transition

namespace AccountDelta

def pre? (d : AccountDelta) : Option AccountSnapshot :=
  match d.transition with
  | .changed pre _ | .closed pre => some pre
  | .created _ => none

def post? (d : AccountDelta) : Option AccountSnapshot :=
  match d.transition with
  | .changed _ post | .created post => some post
  | .closed _ => none

/-- The lamports that an account has gained; what it loses counts below zero. -/
def change (d : AccountDelta) : Int :=
  (d.post?.map (·.lamports)).getD 0 - (d.pre?.map (·.lamports)).getD 0

/-- The latest snapshot of an account. -/
def current (d : AccountDelta) : AccountSnapshot :=
  match d.transition with
  | .changed _ post | .created post => post
  | .closed pre => pre

/-- The lamports of an account after the transaction. -/
def lamports (d : AccountDelta) : Int :=
  match d.transition with
  | .changed _ post | .created post => post.lamports
  | .closed _ => 0

def kindText (d : AccountDelta) : Text :=
  match d.transition with
  | .changed .. => "changed"
  | .created _ => "created"
  | .closed _ => "closed"

/-- The tag of an account that is new or closed. -/
def tag (d : AccountDelta) : Text :=
  match d.transition with
  | .changed .. => ""
  | .created _ => " (new)"
  | .closed _ => " (closed)"

/-- The change with its sign, and the tag of the account. -/
def changeText (d : AccountDelta) : Except Fault Text :=
  if Decimal.isWritable d.change then
    let amount : Text := if d.change = 0 then "0" else Decimal.signedGrouped d.change
    .ok (amount ++ d.tag)
  else .error .badValue

end AccountDelta

/-- Deltas by account. -/
abbrev Deltas := PubkeyMap AccountDelta

namespace Snapshots

/-- The delta of an account that exists before. -/
def deltaFrom (post : Snapshots) (key : Pubkey) (before : AccountSnapshot) : AccountDelta :=
  match post.get? key with
  | some after => ⟨key, .changed before after⟩
  | none => ⟨key, .closed before⟩

/-- The deltas of all accounts: first those that exist before, then the new ones. -/
def diff (pre post : Snapshots) : Deltas :=
  let fresh := post.entries.filter fun entry => !pre.contains entry.1
  ⟨pre.entries.map (fun entry => (entry.1, deltaFrom post entry.1 entry.2)) ++
      fresh.map (fun entry => (entry.1, ⟨entry.1, .created entry.2⟩)), by
    simp only [List.map_append, List.map_map, Function.comp_def]
    rw [List.nodup_append]
    refine ⟨pre.nodup_keys, (post.nodup_keys.sublist ?_), ?_⟩
    · exact List.Sublist.map _ List.filter_sublist
    · intro a ha b hb hab
      subst hab
      obtain ⟨entry, hentry, rfl⟩ := List.mem_map.mp hb
      obtain ⟨_, hfresh⟩ := List.mem_filter.mp hentry
      exact absurd ((pre.contains_iff_mem_keys entry.1).mpr ha) (by simpa using hfresh)⟩

end Snapshots

end SolanaTx
