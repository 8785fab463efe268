import Mathlib.Algebra.Group.Nat.Defs
import SaltyOS.Procmgr.Table

/-!
# Credentials

The requests that change the user ids, the group ids and the supplementary groups of the caller. A caller
with the effective user id 0 is privileged, for the ids of groups too. The handlers for users and for groups
differ in the ids they change only.
-/

namespace SaltyOS.Procmgr

open Function

/-- `u32::MAX`: the id is not to be changed. -/
def keep : ℕ := 2 ^ 32 - 1

namespace Ids

variable (i : Ids) (privileged : Bool)

/-- The id is one of the three. -/
def Has (id : ℕ) : Prop := id = i.real ∨ id = i.effective ∨ id = i.saved

instance (id : ℕ) : Decidable (i.Has id) := inferInstanceAs (Decidable (_ ∨ _))

/-- Set the effective id, or all of them. -/
def set (id : ℕ) : Option Ids :=
  if privileged then some ⟨id, id, id⟩
  else if id = i.real ∨ id = i.saved then some { i with effective := id }
  else none

/-- Set the effective id. -/
def setEffective (id : ℕ) : Option Ids :=
  if privileged ∨ id = i.real ∨ id = i.saved then some { i with effective := id } else none

/-- Set the real and the effective id. -/
def setReal (real effective : ℕ) : Option Ids :=
  let newReal := if real = keep then i.real else real
  let newEffective := if effective = keep then i.effective else effective
  if ¬privileged ∧ real ≠ keep ∧ real ≠ i.real ∧ real ≠ i.effective then none
  else if ¬privileged ∧ effective ≠ keep ∧ ¬i.Has effective then none
  else
    some
      { real := newReal
        effective := newEffective
        saved := if real ≠ keep ∨ newEffective ≠ i.effective then newEffective else i.saved }

/-- Set the three ids. -/
def setAll (real effective saved : ℕ) : Option Ids :=
  if ¬privileged ∧ real ≠ keep ∧ ¬i.Has real then none
  else if ¬privileged ∧ effective ≠ keep ∧ ¬i.Has effective then none
  else if ¬privileged ∧ saved ≠ keep ∧ ¬i.Has saved then none
  else
    some
      { real := if real = keep then i.real else real
        effective := if effective = keep then i.effective else effective
        saved := if saved = keep then i.saved else saved }

/-- The ids are among those of another triple. -/
def Within (j : Ids) : Prop := ∀ id, i.Has id → j.Has id

end Ids

namespace PosixState

variable (p : PosixState)

/-- Change the ids of the user or of the group, or refuse. The change is given the ids and whether the
caller is privileged. -/
def change (user : Bool) (f : Ids → Bool → Option Ids) : PosixState × Label :=
  match f (if user then p.uids else p.gids) (p.uids.effective = 0) with
  | none => (p, .invalidOperation)
  | some ids => (if user then { p with uids := ids } else { p with gids := ids }, .ok)

/-- `handle_setgroups`; a register holds two groups. -/
def handleSetgroups (count : ℕ) (regs : ℕ → ℕ) : PosixState × Label :=
  if p.uids.effective ≠ 0 then (p, .invalidOperation)
  else if count > 32 then (p, .invalidArgument)
  else
    ({ p with
      groups := (List.range count).map fun g =>
        if g % 2 = 0 then regs (1 + g / 2) % 2 ^ 32 else regs (1 + g / 2) / 2 ^ 32 % 2 ^ 32 }, .ok)

end PosixState

/-- The requests. Their ids are what the handlers keep of the registers of the message, the lower 32 bits. -/
inductive CredRequest where
  | setuid (uid : ℕ)
  | setgid (gid : ℕ)
  | seteuid (euid : ℕ)
  | setegid (egid : ℕ)
  | setreuid (ruid euid : ℕ)
  | setregid (rgid egid : ℕ)
  | setresuid (ruid euid suid : ℕ)
  | setresgid (rgid egid sgid : ℕ)
  | setgroups (count : ℕ) (regs : ℕ → ℕ)

/-- The handlers of the requests. -/
def CredRequest.handle (p : PosixState) : CredRequest → PosixState × Label
  | setuid uid => p.change true (·.set · uid)
  | setgid gid => p.change false (·.set · gid)
  | seteuid euid => p.change true (·.setEffective · euid)
  | setegid egid => p.change false (·.setEffective · egid)
  | setreuid ruid euid => p.change true (·.setReal · ruid euid)
  | setregid rgid egid => p.change false (·.setReal · rgid egid)
  | setresuid ruid euid suid => p.change true (·.setAll · ruid euid suid)
  | setresgid rgid egid sgid => p.change false (·.setAll · rgid egid sgid)
  | setgroups count regs => p.handleSetgroups count regs

/-- A request of the process with a badge. The server panics if this is not a POSIX process. -/
def ProcTable.credentials (T : ProcTable) (badge : ℕ) (r : CredRequest) : ProcTable × Label :=
  match T.findByBadge badge with
  | none => (T, .notFound)
  | some (i, p) =>
    match p.posix with
    | none => (T, .unreachable)
    | some posix => (T.put i { p with posix := some (r.handle posix).1 }, (r.handle posix).2)

/-- Several requests, each with the badge of the caller. -/
def ProcTable.credentialsAll (T : ProcTable) (requests : List (ℕ × CredRequest)) : ProcTable :=
  requests.foldl (fun T r => (T.credentials r.1 r.2).1) T

/-! ## No escalation -/

namespace Ids

variable {i j : Ids} {id real effective saved : ℕ}

theorem within_set (h : i.set false id = some j) :
  j.Within i
  := by
  unfold set at h
  grind [Within, Has]

theorem within_setEffective (h : i.setEffective false id = some j) :
  j.Within i
  := by
  unfold setEffective at h
  grind [Within, Has]

theorem within_setReal (h : i.setReal false real effective = some j) :
  j.Within i
  := by
  unfold setReal at h
  grind [Within, Has]

theorem within_setAll (h : i.setAll false real effective saved = some j) :
  j.Within i
  := by
  unfold setAll at h
  rintro id (rfl | rfl | rfl)
  all_goals grind [Has]

end Ids

namespace PosixState

variable {p : PosixState}

/-- The ids are among those that there were, and the supplementary groups are the same. -/
structure Within (p q : PosixState) : Prop where
  uids : p.uids.Within q.uids
  gids : p.gids.Within q.gids
  groups : p.groups = q.groups

theorem Within.refl (p : PosixState) :
  p.Within p
  := ⟨fun _ => id, fun _ => id, rfl⟩

theorem within_change {user : Bool} {f : Ids → Bool → Option Ids} (hp : p.uids.effective ≠ 0)
    (hf : ∀ i j, f i false = some j → j.Within i) :
  (p.change user f).1.Within p
  := by
  unfold change
  rw [decide_eq_false hp]
  split
  · exact .refl p
  next ids hids =>
    cases user with
    | true => exact ⟨hf _ _ hids, fun _ => id, rfl⟩
    | false => exact ⟨fun _ => id, hf _ _ hids, rfl⟩

/-- A request of a process without privilege. -/
theorem within_handle (hp : p.uids.effective ≠ 0) (r : CredRequest) :
  (r.handle p).1.Within p
  := by
  cases r with
  | setuid _ | setgid _ => exact within_change hp fun _ _ => Ids.within_set
  | seteuid _ | setegid _ => exact within_change hp fun _ _ => Ids.within_setEffective
  | setreuid _ _ | setregid _ _ => exact within_change hp fun _ _ => Ids.within_setReal
  | setresuid _ _ _ | setresgid _ _ _ => exact within_change hp fun _ _ => Ids.within_setAll
  | setgroups count regs =>
    have hrefused : (CredRequest.setgroups count regs).handle p = (p, .invalidOperation) := if_pos hp
    rw [hrefused]
    exact .refl p

/-- A request that is refused changes nothing. -/
theorem handle_refused {r : CredRequest} (h : (r.handle p).2 ≠ .ok) :
  (r.handle p).1 = p
  := by
  have hchange : ∀ user f, (p.change user f).2 ≠ .ok → (p.change user f).1 = p := by
    intro user f hne
    unfold change at hne ⊢
    split at hne
    · rfl
    · exact absurd rfl hne
  cases r with
  | setgroups count regs =>
    simp only [CredRequest.handle, handleSetgroups] at h ⊢
    split_ifs at h ⊢
    · rfl
    · rfl
    · exact absurd rfl h
  | _ => exact hchange _ _ h

end PosixState

namespace ProcTable

variable {T : ProcTable} {i : ℕ} {p : Process} {c : PosixState}

/-- What a request does to an entry: it changes by a request of its own process. -/
theorem credentials_procs (hi : T.procs i = some p) (hc : p.posix = some c) (badge : ℕ) (r : CredRequest) :
  ∃ p' c', (T.credentials badge r).1.procs i = some p' ∧ p'.posix = some c' ∧
    (c' = c ∨ c' = (r.handle c).1)
  := by
  unfold credentials
  split
  · exact ⟨p, c, hi, hc, .inl rfl⟩
  next j q hq =>
    split
    · exact ⟨p, c, hi, hc, .inl rfl⟩
    next posix hposix =>
      by_cases heq : i = j
      · subst heq
        cases hi.symm.trans (findBy_spec hq).1
        cases hc.symm.trans hposix
        exact ⟨_, _, update_self .., rfl, .inr rfl⟩
      · exact ⟨p, c, (update_of_ne heq _ _).trans hi, hc, .inl rfl⟩

/-- A request that is refused does not change the table. -/
theorem credentials_refused {badge : ℕ} {r : CredRequest} (h : (T.credentials badge r).2 ≠ .ok) :
  (T.credentials badge r).1 = T
  := by
  unfold credentials at h ⊢
  split
  · rfl
  next j q hq =>
    split
    · rfl
    next posix hposix =>
      simp only [hq, hposix] at h
      rw [PosixState.handle_refused h, ← hposix]
      change { T with procs := update T.procs j (some q) } = T
      rw [← (findBy_spec hq).1, update_eq_self]

/-- The ids stay within those of `c`, so the effective one is never 0. -/
theorem credentialsAll_within (hids : ¬c.uids.Has 0) {d : PosixState} (hi : T.procs i = some p)
    (hd : p.posix = some d) (hwithin : d.Within c) (requests : List (ℕ × CredRequest)) :
  ∃ p' c', (T.credentialsAll requests).procs i = some p' ∧ p'.posix = some c' ∧ c'.Within c
  := by
  induction requests generalizing T p d with
  | nil => exact ⟨p, d, hi, hd, hwithin⟩
  | cons request requests ih =>
    obtain ⟨p', d', hi', hd', rfl | rfl⟩ := credentials_procs hi hd request.1 request.2
    · exact ih hi' hd' hwithin
    · have hne : d.uids.effective ≠ 0 := by
        intro hzero
        exact hids (hwithin.uids 0 (.inr (.inl hzero.symm)))
      obtain ⟨huids, hgids, hgroups⟩ := PosixState.within_handle hne request.2
      apply ih hi' hd'
      exact ⟨fun id hid => hwithin.uids id (huids id hid), fun id hid => hwithin.gids id (hgids id hid),
        hgroups.trans hwithin.groups⟩

/-- A process whose user ids are not 0 does not gain ids or groups, whatever requests there are; and a
request that is refused changes nothing. -/
theorem credentials_never_escalate (hi : T.procs i = some p) (hc : p.posix = some c)
    (hids : ¬c.uids.Has 0) (requests : List (ℕ × CredRequest)) :
  (∃ p' c', (T.credentialsAll requests).procs i = some p' ∧ p'.posix = some c' ∧ c'.Within c) ∧
    ∀ badge r, ((T.credentialsAll requests).credentials badge r).2 ≠ .ok →
      ((T.credentialsAll requests).credentials badge r).1 = T.credentialsAll requests
  := ⟨credentialsAll_within hids hi hc (.refl c) requests, fun _ _ => credentials_refused⟩

/-- A process with the user ids 1 and 2 asks for 2 and for 0. -/
theorem credentials_never_escalate_swap :
  ∃ p' c', ((initial.put 0 ⟨7, some { uids := ⟨1, 1, 2⟩ }⟩).credentialsAll
    [(7, .setreuid keep 2), (7, .setuid 0)]).procs 0 = some p' ∧ p'.posix = some c' ∧
      c'.Within { uids := ⟨1, 1, 2⟩ }
  := (credentials_never_escalate (T := initial.put 0 _) (update_self ..) rfl (by decide) _).1

/-- A privileged process that sets its user id to another one than 0 loses its privilege for good. -/
theorem privilege_lost_of_setuid {badge uid : ℕ} (hfind : T.findByBadge badge = some (i, p))
    (hc : p.posix = some c) (hroot : c.uids.effective = 0) (huid : uid ≠ 0)
    (requests : List (ℕ × CredRequest)) :
  ∃ p' c', ((T.credentials badge (.setuid uid)).1.credentialsAll requests).procs i = some p' ∧
    p'.posix = some c' ∧ ¬c'.uids.Has 0
  := by
  have hset : (T.credentials badge (.setuid uid)).1.procs i =
      some { p with posix := some { c with uids := ⟨uid, uid, uid⟩ } } := by
    simp [credentials, hfind, hc, CredRequest.handle, PosixState.change, hroot, Ids.set, put]
  have hids : ¬Ids.Has ⟨uid, uid, uid⟩ 0 := by simp [Ids.Has, huid.symm]
  obtain ⟨p', c', hi, hc', hwithin⟩ := credentialsAll_within (c := { c with uids := ⟨uid, uid, uid⟩ })
    hids hset rfl (.refl _) requests
  exact ⟨p', c', hi, hc', fun h => hids (hwithin.uids 0 h)⟩

/-- The process 7 sets its user id to 1 and cannot go back to 0. -/
theorem privilege_lost_of_setuid_one :
  ∃ p' c', (((initial.put 0 ⟨7, some {}⟩).credentials 7 (.setuid 1)).1.credentialsAll
    [(7, .setuid 0)]).procs 0 = some p' ∧ p'.posix = some c' ∧ ¬c'.uids.Has 0
  := privilege_lost_of_setuid (T := initial.put 0 _) rfl rfl rfl (by decide) _

end ProcTable

end SaltyOS.Procmgr
