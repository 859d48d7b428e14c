import Mathlib.Data.Set.Basic
import Wrongsv.Core.Table
import Wrongsv.L1Encoding.VlessHeader

/-!
# The VLESS user registry

`MemoryValidator` of `vless/validator.rs`: the users under their
processed ids, and those with an email under its lowercase form. `process_uuid`
zeroes bytes 6 and 7, so 2^16 ids lead to the same user, whose account holds one
of them.

`get_process`: a user that is found has an id that differs from the one looked
up in these two bytes at most, after any sequence of `add` and `del`.

`call_refused`: an `add` or `del` that is rejected leaves both maps as they are.
-/
namespace Wrongsv.L2.Vless
open L1.VisionFrame L1.VlessHeader

/-- uuid/types.rs:81-86 -/
def processUuid (id : Uuid) : Uuid :=
  ⟨(id.bytes.set 6 0).set 7 0, by rw [List.length_set, List.length_set, id.length_eq]⟩

inductive ValidatorError where
  | duplicateEmail (email : String)
  | notFound (message : String)
  deriving DecidableEq, Repr

structure MemoryValidator where
  users : Table Uuid MemoryUser
  emails : Table String MemoryUser

namespace MemoryValidator

def new : MemoryValidator := ⟨.empty, .empty⟩

def get (w : MemoryValidator) (id : Uuid) : Option MemoryUser := w.users (processUuid id)

/-- The users in the vector; their order is the map's own. -/
def getAll (w : MemoryValidator) : Set MemoryUser := {u | ∃ key, w.emails key = some u}

section
variable (toLowercase : String → String)

/-- `str::to_lowercase` is a parameter. -/
def add (w : MemoryValidator) (user : MemoryUser) : Except ValidatorError MemoryValidator :=
  let users := w.users.insert (processUuid user.account.id) user
  if user.email = "" then .ok { w with users }
  else
    let key := toLowercase user.email
    if (w.emails key).isSome then .error (.duplicateEmail user.email)
    else .ok ⟨users, w.emails.insert key user⟩

def del (w : MemoryValidator) (email : String) : Except ValidatorError MemoryValidator :=
  let key := toLowercase email
  match w.emails key with
  | some u => .ok ⟨w.users.remove (processUuid u.account.id), w.emails.remove key⟩
  | none => .error (.notFound ("user " ++ email ++ " not found"))

def getByEmail (w : MemoryValidator) (email : String) : Option MemoryUser :=
  w.emails (toLowercase email)

/-- What a sequence of successful `add` and `del` leads to. -/
inductive Reachable : MemoryValidator → Prop where
  | new : Reachable new
  | add {w w' : MemoryValidator} {user : MemoryUser} (h : Reachable w) (ok : w.add toLowercase user = .ok w') :
      Reachable w'
  | del {w w' : MemoryValidator} {email : String} (h : Reachable w) (ok : w.del toLowercase email = .ok w') :
      Reachable w'

end

/-- A user stands under its own processed id. -/
def Filed (w : MemoryValidator) : Prop :=
  ∀ key user, w.users key = some user → key = processUuid user.account.id

variable {w : MemoryValidator}

theorem Filed.insert (h : w.Filed) (user : MemoryUser) (emails : Table String MemoryUser) :
    Filed ⟨w.users.insert (processUuid user.account.id) user, emails⟩ := by
  intro key found hfound
  simp only at hfound
  by_cases hk : key = processUuid user.account.id
  · simp_all
  · rw [Table.insert_of_ne _ hk] at hfound
    exact h key found hfound

theorem Filed.remove (h : w.Filed) (id : Uuid) (emails : Table String MemoryUser) :
    Filed ⟨w.users.remove id, emails⟩ := by
  intro key found hfound
  simp only at hfound
  by_cases hk : key = id
  · simp_all
  · rw [Table.remove_of_ne _ hk] at hfound
    exact h key found hfound

variable {toLowercase : String → String}

theorem Reachable.filed (h : Reachable toLowercase w) : w.Filed := by
  induction h with
  | new => intro key user hfound; cases hfound
  | @add w w' user _ ok ih =>
    unfold MemoryValidator.add at ok
    simp only at ok
    split at ok
    · cases ok
      exact ih.insert user _
    · split at ok
      · cases ok
      · cases ok
        exact ih.insert user _
  | @del w w' email _ ok ih =>
    unfold MemoryValidator.del at ok
    simp only at ok
    split at ok
    · cases ok
      exact ih.remove _ _
    · cases ok

/-- **The id looked up and the account's id** agree outside bytes 6 and 7. -/
theorem get_process (h : Reachable toLowercase w) {id : Uuid} {user : MemoryUser}
    (hget : w.get id = some user) : processUuid id = processUuid user.account.id :=
  h.filed _ _ hget

/-! ## Calls -/

/-- The two calls that change the registry. -/
inductive Call where
  | add (user : MemoryUser)
  | del (email : String)

section
variable (toLowercase : String → String)

/-- A call on the registry in place, one map after the other: `add` files the user
under its e-mail before it does under its id, `del` removes it in that order. -/
def call (w : MemoryValidator) : Call → Except ValidatorError Unit × MemoryValidator
  | .add user =>
    let file (w : MemoryValidator) : MemoryValidator :=
      { w with users := w.users.insert (processUuid user.account.id) user }
    if user.email ≠ "" then
      let key := toLowercase user.email
      if (w.emails key).isSome then (.error (.duplicateEmail user.email), w)
      else (.ok (), file { w with emails := w.emails.insert key user })
    else (.ok (), file w)
  | .del email =>
    let key := toLowercase email
    match w.emails key with
    | some u =>
      let w := { w with emails := w.emails.remove key }
      (.ok (), { w with users := w.users.remove (processUuid u.account.id) })
    | none => (.error (.notFound ("user " ++ email ++ " not found")), w)

/-- The registry after a sequence of calls, rejected ones included. -/
def calls (w : MemoryValidator) (cs : List Call) : MemoryValidator :=
  cs.foldl (fun w c => (w.call toLowercase c).2) w

end

/-- `call` is `add` and `del` on the registry in place. -/
theorem call_eq (w : MemoryValidator) (c : Call) :
    w.call toLowercase c =
      match (match c with | .add user => w.add toLowercase user | .del email => w.del toLowercase email) with
      | .ok w' => (.ok (), w')
      | .error e => (.error e, w) := by
  grind [add, call, del]

/-- **A rejected call changes nothing.** -/
theorem call_refused {w w' : MemoryValidator} {c : Call} {e : ValidatorError}
    (h : w.call toLowercase c = (.error e, w')) : w' = w := by
  rw [call_eq] at h
  split at h <;> cases h
  rfl

theorem Reachable.call {w : MemoryValidator} (h : Reachable toLowercase w) (c : Call) :
    Reachable toLowercase (w.call toLowercase c).2 := by
  grind [call_eq, add, del]

theorem call_add (toLowercase : String → String) {user : MemoryUser} (hmail : user.email ≠ "")
    (w : MemoryValidator) : ((∃ u, w.emails (toLowercase user.email) = some u) ∧
        w.call toLowercase (.add user) = (.error (.duplicateEmail user.email), w)) ∨
      (w.emails (toLowercase user.email) = none ∧ w.call toLowercase (.add user) = (.ok (),
          ⟨w.users.insert (processUuid user.account.id) user, w.emails.insert (toLowercase user.email) user⟩)) := by
  cases hfound : w.emails (toLowercase user.email) with
  | some u => exact .inl ⟨⟨u, rfl⟩, by simp [call, hmail, hfound]⟩
  | none => exact .inr ⟨rfl, by simp [call, hmail, hfound]⟩

theorem call_del (toLowercase : String → String) (email : String) (w : MemoryValidator) :
    (w.emails (toLowercase email) = none ∧ w.call toLowercase (.del email) =
        (.error (.notFound ("user " ++ email ++ " not found")), w)) ∨
      ∃ u, w.emails (toLowercase email) = some u ∧ w.call toLowercase (.del email) = (.ok (),
          ⟨w.users.remove (processUuid u.account.id), w.emails.remove (toLowercase email)⟩) := by
  grind [call]

end MemoryValidator

/-- The registry the handlers decode with. -/
def MemoryValidator.registry (w : MemoryValidator) (unmarshal : Bytes → Except String Addons) :
    Registry :=
  ⟨w.get, unmarshal⟩

theorem gives_lookup (reg : Registry) :
    Parser.Gives (decodeRequestHeader reg) (fun d => reg.lookup d.userSentId = some d.header.user) := by
  refine Parser.gives_bind _ fun version => ?_
  split
  · exact Parser.gives_throw _ _
  refine Parser.gives_bind _ fun id => ?_
  simp only
  split
  · exact Parser.gives_throw _ _
  rename_i user hlook
  refine Parser.gives_bind _ fun addons => Parser.gives_bind _ fun cmd => ?_
  split
  · exact Parser.gives_throw _ _
  · refine Parser.gives_bind _ fun p => ?_
    exact Parser.gives_pure hlook

end Wrongsv.L2.Vless
