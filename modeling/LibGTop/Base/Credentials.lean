import LibGTop.Base.Runs
import Mathlib.Data.List.Basic

/-!
# The credentials of a process

The real, effective and saved ids of a POSIX process and the calls that change
them. A system says which processes are privileged for a call. Without the privilege
a call only moves ids that the process has, so what it has given up it never gets back.
-/

namespace LibGTop.Base

universe u

/-- Three ids of one kind. -/
structure Ids (Id : Type u) where
  real : Id
  effective : Id
  saved : Id
  deriving DecidableEq

/-- A call on three ids; an argument that is absent leaves its id as it is. -/
inductive IdCall (Id : Type u)
  | setre (real effective : Option Id)
  | setres (real effective saved : Option Id)
  | set (id : Id)
  deriving DecidableEq

/-- What an unprivileged process may take as its real id, besides the one it has: the effective
one on some systems, the saved one on others. -/
inductive RealRule
  | effective
  | saved
  deriving DecidableEq, Repr

/-- The credentials of a process: its user ids, its group ids and its supplementary groups. -/
structure Credentials (Id : Type u) where
  uids : Ids Id
  gids : Ids Id
  groups : List Id
  deriving DecidableEq

/-- A call on the credentials. -/
inductive CredentialCall (Id : Type u)
  | users (call : IdCall Id)
  | groups (call : IdCall Id)
  | setgroups (groups : List Id)
  deriving DecidableEq

section

variable {Id : Type u}

/-- The three of them are one id. -/
def Ids.all (id : Id) : Ids Id := ⟨id, id, id⟩

/-- The ids that there are. -/
def Ids.toList (ids : Ids Id) : List Id := [ids.real, ids.effective, ids.saved]

theorem Ids.real_mem (ids : Ids Id) : ids.real ∈ ids.toList := by simp [toList]

theorem Ids.effective_mem (ids : Ids Id) : ids.effective ∈ ids.toList := by simp [toList]

/-- The second id that may become the real one. -/
def RealRule.other (rule : RealRule) (ids : Ids Id) : Id :=
  match rule with
  | effective => ids.effective
  | saved => ids.saved

theorem RealRule.other_mem (rule : RealRule) (ids : Ids Id) : rule.other ids ∈ ids.toList := by
  cases rule <;> simp [other, Ids.toList]

/-- Where the two are one, the systems do not differ. -/
theorem RealRule.other_eq (rule : RealRule) {ids : Ids Id} (h : ids.saved = ids.effective) :
    rule.other ids = ids.effective := by
  cases rule with
  | effective => rfl
  | saved => exact h

/-- What the calls with an absent argument do to one id. -/
theorem getD_mem {id : Id} {ids : List Id} {asked : Option Id} (h : id ∈ ids)
    (ha : ∀ a ∈ asked, a ∈ ids) : asked.getD id ∈ ids := by
  cases asked with
  | none => exact h
  | some a => exact ha a rfl

/-- Three ids that are among one id. -/
theorem Ids.eq_all {ids : Ids Id} {id : Id} (h : ∀ i ∈ ids.toList, i ∈ (Ids.all id).toList) :
    ids = .all id := by
  obtain ⟨real, effective, saved⟩ := ids
  simp only [toList, all, List.mem_cons, List.not_mem_nil, or_false, or_self, forall_eq_or_imp,
    forall_eq] at h
  obtain ⟨rfl, rfl, rfl⟩ := h
  rfl

/-- The process has no more than another one had: no other id, and the same groups. -/
structure Credentials.Within (p q : Credentials Id) : Prop where
  uids : ∀ id ∈ p.uids.toList, id ∈ q.uids.toList
  gids : ∀ id ∈ p.gids.toList, id ∈ q.gids.toList
  groups : p.groups = q.groups

theorem Credentials.within_refl (p : Credentials Id) : p.Within p :=
  ⟨fun _ h ↦ h, fun _ h ↦ h, rfl⟩

theorem Credentials.Within.trans {p q r : Credentials Id} (h : p.Within q) (h' : q.Within r) :
    p.Within r :=
  ⟨fun id hi ↦ h'.uids id (h.uids id hi), fun id hi ↦ h'.gids id (h.gids id hi),
    h.groups.trans h'.groups⟩

variable [DecidableEq Id]

/-- An unprivileged process may ask for this. -/
def Ids.permits (rule : RealRule) (ids : Ids Id) : IdCall Id → Bool
  | .setre real effective =>
    real.all (fun id ↦ id = ids.real || id = rule.other ids) &&
      effective.all fun id ↦ ids.toList.contains id
  | .setres real effective saved =>
    [real, effective, saved].all fun asked ↦ asked.all fun id ↦ ids.toList.contains id
  | .set id => id = ids.real || id = ids.saved

/-- The ids behind a call that is permitted. The saved id follows the effective one when the real
id is set, or the effective one to another than the real one. -/
def Ids.apply (privileged : Bool) (ids : Ids Id) : IdCall Id → Ids Id
  | .setre real effective =>
    { real := real.getD ids.real
      effective := effective.getD ids.effective
      saved := if real.isSome || effective.any (fun id ↦ id ≠ ids.real) then
        effective.getD ids.effective else ids.saved }
  | .setres real effective saved =>
    ⟨real.getD ids.real, effective.getD ids.effective, saved.getD ids.saved⟩
  | .set id => if privileged then .all id else { ids with effective := id }

/-- A call; absent when it fails. -/
def Ids.call (rule : RealRule) (privileged : Bool) (ids : Ids Id) (c : IdCall Id) :
    Option (Ids Id) :=
  if privileged || ids.permits rule c then some (ids.apply privileged c) else none

/-- Without the privilege a call that is permitted brings no new id. -/
theorem Ids.mem_apply {rule : RealRule} {ids : Ids Id} {c : IdCall Id} (hp : ids.permits rule c)
    {id : Id} (h : id ∈ (ids.apply false c).toList) : id ∈ ids.toList := by
  cases c with
  | setre real effective =>
    simp only [permits, Bool.and_eq_true, Option.all_eq_true, Bool.or_eq_true,
      decide_eq_true_eq, List.contains_eq_mem] at hp
    have hr : ∀ a ∈ real, a ∈ ids.toList := by
      intro a ha
      obtain rfl | rfl := hp.1 a ha
      · simp [toList]
      · exact rule.other_mem ids
    have hreal := getD_mem (ids.real_mem) hr
    have heffective := getD_mem (ids.effective_mem) hp.2
    simp only [apply, toList, List.mem_cons, List.not_mem_nil, or_false] at h
    obtain rfl | rfl | rfl := h
    · exact hreal
    · exact heffective
    · split
      · exact heffective
      · simp [toList]
  | setres real effective saved =>
    simp only [permits, List.all_cons, List.all_nil, Bool.and_true, Bool.and_eq_true,
      Option.all_eq_true, decide_eq_true_eq, List.contains_eq_mem] at hp
    simp only [apply, toList, List.mem_cons, List.not_mem_nil, or_false] at h
    obtain rfl | rfl | rfl := h
    · exact getD_mem (by simp [toList]) hp.1
    · exact getD_mem (by simp [toList]) hp.2.1
    · exact getD_mem (by simp [toList]) hp.2.2
  | set new =>
    simp only [permits, Bool.or_eq_true, decide_eq_true_eq] at hp
    simp only [apply, toList, Bool.false_eq_true, if_false, List.mem_cons, List.not_mem_nil,
      or_false] at h
    obtain rfl | rfl | rfl := h
    · simp [toList]
    · obtain rfl | rfl := hp <;> simp [toList]
    · simp [toList]

end

/-- What a system lets its processes do: which second id may become the real one, and for which
calls a process is privileged, which has the capability and asks for ids that its namespace has. -/
structure IdPolicy (Id : Type u) where
  rule : RealRule
  privileged : Credentials Id → CredentialCall Id → Bool

/-- Nobody is privileged who has not this user id. -/
def IdPolicy.Only {Id : Type u} (policy : IdPolicy Id) (root : Id) : Prop :=
  ∀ p c, root ∉ p.uids.toList → policy.privileged p c = false

/-- Everybody is privileged for everything whose effective user has this id, and nobody else. -/
def IdPolicy.classic {Id : Type u} [DecidableEq Id] (root : Id) (rule : RealRule) :
    IdPolicy Id where
  rule := rule
  privileged p _ := p.uids.effective = root

section

variable {Id : Type u} [DecidableEq Id]

theorem IdPolicy.only_classic (root : Id) (rule : RealRule) : (classic root rule).Only root :=
  fun p _ h ↦ decide_eq_false fun he ↦ h (he ▸ p.uids.effective_mem)

variable (policy : IdPolicy Id)

/-- A call on the credentials; absent when it fails. -/
def Credentials.call (p : Credentials Id) (c : CredentialCall Id) : Option (Credentials Id) :=
  let privileged := policy.privileged p c
  match c with
  | .users c => (p.uids.call policy.rule privileged c).map fun uids ↦ { p with uids := uids }
  | .groups c => (p.gids.call policy.rule privileged c).map fun gids ↦ { p with gids := gids }
  | .setgroups groups => if privileged then some { p with groups := groups } else none

/-- A call whose result is not looked at. -/
def Credentials.attempt (p : Credentials Id) (c : CredentialCall Id) : Credentials Id :=
  (p.call policy c).getD p

variable {policy} {root : Id} {rule : RealRule}

/-- A call of an unprivileged process gives it nothing. -/
theorem Credentials.within_attempt {p : Credentials Id} {c : CredentialCall Id}
    (hp : policy.privileged p c = false) : (p.attempt policy c).Within p := by
  cases c with
  | users c =>
    simp only [attempt, call, hp, Ids.call, Bool.false_or]
    split
    · next hc => exact ⟨fun _ h ↦ Ids.mem_apply hc h, fun _ h ↦ h, rfl⟩
    · exact p.within_refl
  | groups c =>
    simp only [attempt, call, hp, Ids.call, Bool.false_or]
    split
    · next hc => exact ⟨fun _ h ↦ h, fun _ h ↦ Ids.mem_apply hc h, rfl⟩
    · exact p.within_refl
  | setgroups groups =>
    simp only [attempt, call, hp, Bool.false_eq_true, if_false]
    exact p.within_refl

/-- A process that has the privilege in none of its user ids never has more than it has now. -/
theorem Credentials.within_run {p : Credentials Id} (only : policy.Only root)
    (hp : root ∉ p.uids.toList) (calls : List (CredentialCall Id)) :
    (run (attempt policy) p calls).Within p := by
  refine run_invariant (attempt policy) (fun q ↦ q.Within p) ?_ p calls p.within_refl
  intro q c hq
  have hn : root ∉ q.uids.toList := fun h ↦ hp (hq.uids root h)
  exact (within_attempt (only q c hn)).trans hq

/-- One exchange of the real and the effective id, as the saved one follows. -/
theorem Ids.call_exchange {ids : Ids Id} (privileged : Bool) (h : ids.saved = ids.effective) :
    ids.call rule privileged (.setre (some ids.effective) (some ids.real)) =
      some ⟨ids.effective, ids.real, ids.real⟩ := by
  have hp : ids.permits rule (.setre (some ids.effective) (some ids.real)) = true := by
    simp [permits, rule.other_eq h, toList]
  simp [call, hp, apply]

/-- To ask for the ids that the process has. -/
theorem Ids.call_same {ids : Ids Id} (privileged : Bool) (h : ids.saved = ids.effective) :
    ids.call rule privileged (.setre (some ids.real) (some ids.effective)) = some ids := by
  have hp : ids.permits rule (.setre (some ids.real) (some ids.effective)) = true := by
    simp [permits, toList]
  obtain ⟨real, effective, saved⟩ := ids
  cases h
  simp [call, hp, apply]

end

end LibGTop.Base
