import Mathlib.Data.List.Induction
import Wrongsv.L2Machine.Vless.Validator

/-!
# The VLESS registry: two users under one id

`MemoryValidator::add` rejects a second user with the same e-mail, but files a user under
its processed id whoever stands there already (vless/validator.rs:57-72). Ids that agree
outside bytes 6 and 7 share that key. The earlier user stays listed and is no longer found;
`del` of either one removes the entry of both (:74-99).

Spec clause: the users listed are the users found by id, and `del` takes away one user and
no other.

Fix: reject the `add` when `users` has the processed id.
-/
namespace Wrongsv.Bugs.ValidatorSharedId
open L1.VisionFrame L1.VlessHeader L2.Vless L2.Vless.MemoryValidator

/-- The users listed and the users found by id are the same, each under its own id. -/
structure Consistent (w : MemoryValidator) : Prop where
  listed : ∀ u ∈ w.getAll, w.get u.account.id = some u
  found : ∀ id u, w.get id = some u → u ∈ w.getAll

section
variable (toLowercase : String → String)

/-- One user is gone, the one with this e-mail up to its case: neither an id nor an
e-mail leads to it, and all others are found as before. -/
def RemovesOne (w w' : MemoryValidator) (email : String) : Prop :=
  ∃ gone ∈ w.getAll, toLowercase gone.email = toLowercase email ∧
    (∀ id, w'.get id ≠ some gone) ∧ (∀ e, w'.getByEmail toLowercase e ≠ some gone) ∧
    ∀ u ∈ w.getAll, u ≠ gone →
      w'.get u.account.id = some u ∧ w'.getByEmail toLowercase u.email = some u

/-- The clauses of the registry, at every point of a sequence of calls. -/
structure Sound (cs : List Call) : Prop where
  consistent : ∀ before after, cs = before ++ after → Consistent (new.calls toLowercase before)
  refused : ∀ before c after, cs = before ++ c :: after → ∀ e w',
    (new.calls toLowercase before).call toLowercase c = (.error e, w') →
    w' = new.calls toLowercase before
  removes : ∀ before email after, cs = before ++ .del email :: after → ∀ w',
    (new.calls toLowercase before).call toLowercase (.del email) = (.ok (), w') →
    RemovesOne toLowercase (new.calls toLowercase before) w' email

/-- No accepted `add` comes with the processed id of a listed user. -/
def Clear (cs : List Call) : Prop :=
  ∀ before user after, cs = before ++ .add user :: after → ∀ w',
    (new.calls toLowercase before).call toLowercase (.add user) = (.ok (), w') →
    ∀ u ∈ (new.calls toLowercase before).getAll, processUuid u.account.id ≠ processUuid user.account.id

/-- Every user that is added has an e-mail. -/
def Mailed (cs : List Call) : Prop := ∀ user, Call.add user ∈ cs → user.email ≠ ""

/-- A user with an e-mail stands under its lowercase form. -/
def EmailFiled (w : MemoryValidator) : Prop :=
  ∀ key u, w.emails key = some u → key = toLowercase u.email

end

variable {toLowercase : String → String}

/-! ## The e-mail table -/

theorem emailFiled_call {w : MemoryValidator} (h : EmailFiled toLowercase w) {c : Call}
    (hc : ∀ user, c = .add user → user.email ≠ "") : EmailFiled toLowercase (w.call toLowercase c).2 := by
  cases c with
  | add user =>
    obtain ⟨-, hcall⟩ | ⟨-, hcall⟩ := call_add toLowercase (hc user rfl) w
    · rw [hcall]
      exact h
    · rw [hcall]
      intro key u hu
      by_cases hk : key = toLowercase user.email
      · simp_all
      · simp only [Table.insert_of_ne _ hk] at hu
        exact h key u hu
  | del email =>
    obtain ⟨-, hcall⟩ | ⟨u, -, hcall⟩ := call_del toLowercase email w
    · rw [hcall]
      exact h
    · rw [hcall]
      intro key u hu
      by_cases hk : key = toLowercase email
      · simp [hk] at hu
      · simp only [Table.remove_of_ne _ hk] at hu
        exact h key u hu

/-- What each call of the sequence preserves holds at every point of it. -/
theorem calls_induction {P : MemoryValidator → Prop} {cs : List Call} (hnew : P new)
    (hstep : ∀ before c after, cs = before ++ c :: after → P (new.calls toLowercase before) →
      P ((new.calls toLowercase before).call toLowercase c).2) :
    ∀ before after, cs = before ++ after → P (new.calls toLowercase before) := by
  intro before
  induction before using List.reverseRecOn with
  | nil => exact fun _ _ => hnew
  | append_singleton before c ih => grind [calls]

theorem emailFiled_calls (toLowercase : String → String) {cs : List Call} (hmail : Mailed cs) {before after : List Call}
    (hcs : cs = before ++ after) : EmailFiled toLowercase (new.calls toLowercase before) := by
  refine calls_induction (fun key u hu => by cases hu) ?_ before after hcs
  intro before c after hcs h
  refine emailFiled_call h fun user hc => hmail user ?_
  rw [hcs, hc]
  simp

/-! ## Without a shared id -/

section
variable {w : MemoryValidator}

theorem consistent_new : Consistent new := by
  constructor
  · rintro u ⟨key, hu⟩
    cases hu
  · intro id u hu
    cases hu

theorem consistent_add (h : Consistent w) {user : MemoryUser} (hmail : w.emails (toLowercase user.email) = none)
    (hclear : ∀ u ∈ w.getAll, processUuid u.account.id ≠ processUuid user.account.id) :
    Consistent ⟨w.users.insert (processUuid user.account.id) user, w.emails.insert (toLowercase user.email) user⟩ := by
  constructor
  · rintro u ⟨key, hu⟩
    simp only at hu
    by_cases hk : key = toLowercase user.email
    · simp only [hk, Table.insert_self, Option.some.injEq] at hu
      simp [MemoryValidator.get, hu]
    · rw [Table.insert_of_ne _ hk] at hu
      have hne := hclear u ⟨key, hu⟩
      show w.users.insert _ user (processUuid u.account.id) = some u
      rw [Table.insert_of_ne _ hne]
      exact h.listed u ⟨key, hu⟩
  · intro id u hu
    change w.users.insert _ user (processUuid id) = some u at hu
    by_cases hid : processUuid id = processUuid user.account.id
    · rw [hid, Table.insert_self, Option.some.injEq] at hu
      exact ⟨toLowercase user.email, by simp [hu]⟩
    · rw [Table.insert_of_ne _ hid] at hu
      obtain ⟨key, hkey⟩ := h.found id u hu
      have hne : key ≠ toLowercase user.email := by
        grind
      exact ⟨key, by simp [Table.insert_of_ne _ hne, hkey]⟩

section
variable (h : Consistent w) (hfiled : EmailFiled toLowercase w) {email : String} {gone : MemoryUser}
  (hgone : w.emails (toLowercase email) = some gone)
include h hfiled hgone

/-- Another listed user stands under another e-mail and another processed id. -/
theorem other_of_listed {u : MemoryUser} (hu : u ∈ w.getAll) (hne : u ≠ gone) :
    w.emails (toLowercase u.email) = some u ∧ toLowercase u.email ≠ toLowercase email ∧
      processUuid u.account.id ≠ processUuid gone.account.id := by
  have hown : w.emails (toLowercase u.email) = some u := by
    obtain ⟨key, hkey⟩ := hu
    rwa [← hfiled key u hkey]
  refine ⟨hown, ?_, ?_⟩
  · grind
  · intro heq
    have hget := h.listed u hu
    have hgone' := h.listed gone ⟨_, hgone⟩
    simp only [MemoryValidator.get] at hget hgone'
    simp_all

/-- **`del` removes one user.** -/
theorem removesOne_del (hreach : w.Reachable toLowercase) : RemovesOne toLowercase w
      ⟨w.users.remove (processUuid gone.account.id), w.emails.remove (toLowercase email)⟩ email := by
  refine ⟨gone, ⟨_, hgone⟩, (hfiled _ _ hgone).symm, ?_, ?_, ?_⟩
  · intro id hid
    change w.users.remove _ (processUuid id) = some gone at hid
    by_cases heq : processUuid id = processUuid gone.account.id
    · simp [heq] at hid
    · rw [Table.remove_of_ne _ heq] at hid
      exact heq (get_process hreach hid)
  · intro e he
    change w.emails.remove _ (toLowercase e) = some gone at he
    by_cases heq : toLowercase e = toLowercase email
    · simp [heq] at he
    · rw [Table.remove_of_ne _ heq] at he
      exact heq ((hfiled _ _ he).trans (hfiled _ _ hgone).symm)
  · intro u hu hne
    obtain ⟨hown, hmail, hid⟩ := other_of_listed h hfiled hgone hu hne
    constructor
    · show w.users.remove _ (processUuid u.account.id) = some u
      rw [Table.remove_of_ne _ hid]
      exact h.listed u hu
    · show w.emails.remove _ (toLowercase u.email) = some u
      rw [Table.remove_of_ne _ hmail, hown]

/-- Who is found by id afterwards is still listed, and who is listed is found. -/
theorem consistent_del (hreach : w.Reachable toLowercase) :
    Consistent ⟨w.users.remove (processUuid gone.account.id), w.emails.remove (toLowercase email)⟩ := by
  constructor
  · rintro u ⟨key, hu⟩
    simp only at hu
    by_cases hk : key = toLowercase email
    · simp [hk] at hu
    · rw [Table.remove_of_ne _ hk] at hu
      have hne : u ≠ gone := by
        rintro rfl
        exact hk ((hfiled _ _ hu).trans (hfiled _ _ hgone).symm)
      have hid := (other_of_listed h hfiled hgone ⟨key, hu⟩ hne).2.2
      show w.users.remove _ (processUuid u.account.id) = some u
      rw [Table.remove_of_ne _ hid]
      exact h.listed u ⟨key, hu⟩
  · intro id u hu
    change w.users.remove _ (processUuid id) = some u at hu
    by_cases hid : processUuid id = processUuid gone.account.id
    · simp [hid] at hu
    · rw [Table.remove_of_ne _ hid] at hu
      obtain ⟨key, hkey⟩ := h.found id u hu
      have hk : key ≠ toLowercase email := by
        rintro rfl
        rw [hgone, Option.some.injEq] at hkey
        rw [← hkey] at hu
        exact hid (get_process hreach hu)
      exact ⟨key, by simp [Table.remove_of_ne _ hk, hkey]⟩

end

end

/-! ## Along a sequence of calls -/

section
variable {cs : List Call} (hmail : Mailed cs)
include hmail

theorem consistent_of_clear (hclear : Clear toLowercase cs) {before after : List Call} (hcs : cs = before ++ after) :
    Consistent (new.calls toLowercase before) ∧ (new.calls toLowercase before).Reachable toLowercase := by
  refine calls_induction (P := fun w => Consistent w ∧ w.Reachable toLowercase)
    ⟨consistent_new, .new⟩ ?_ before after hcs
  rintro before c after hcs ⟨h, hreach⟩
  refine ⟨?_, hreach.call c⟩
  have hfiled := emailFiled_calls toLowercase hmail hcs
  cases c with
  | add user =>
    have huser : user.email ≠ "" := hmail user (by simp [hcs])
    obtain ⟨-, hcall⟩ | ⟨hnone, hcall⟩ := call_add toLowercase huser (new.calls toLowercase before)
    · rw [hcall]
      exact h
    · rw [hcall]
      exact consistent_add h hnone (hclear before user after hcs _ hcall)
  | del email =>
    obtain ⟨-, hcall⟩ | ⟨gone, hgone, hcall⟩ := call_del toLowercase email (new.calls toLowercase before)
    · rw [hcall]
      exact h
    · rw [hcall]
      exact consistent_del h hfiled hgone hreach

theorem sound_of_clear (hclear : Clear toLowercase cs) : Sound toLowercase cs where
  consistent _ _ hcs := (consistent_of_clear hmail hclear hcs).1
  refused _ _ _ _ _ _ hcall := call_refused hcall
  removes before email after hcs w' hok := by
    obtain ⟨h, hreach⟩ := consistent_of_clear hmail hclear hcs
    have hfiled := emailFiled_calls toLowercase hmail hcs
    obtain ⟨-, hcall⟩ | ⟨gone, hgone, hcall⟩ := call_del toLowercase email (new.calls toLowercase before)
    all_goals grind [removesOne_del]

theorem clear_of_sound (hsound : Sound toLowercase cs) : Clear toLowercase cs := by
  intro before user after hcs w' hok u hu heq
  have hfiled := emailFiled_calls toLowercase hmail hcs
  have huser : user.email ≠ "" := hmail user (by simp [hcs])
  obtain ⟨-, hcall⟩ | ⟨hnone, hcall⟩ := call_add toLowercase huser (new.calls toLowercase before)
  · rw [hcall] at hok
    cases hok
  have hnext : Consistent ((new.calls toLowercase before).call toLowercase (.add user)).2 := by
    have := hsound.consistent (before ++ [.add user]) after (by simp [hcs])
    simpa [calls] using this
  rw [hcall] at hnext
  obtain ⟨key, hkey⟩ := hu
  have hne : key ≠ toLowercase user.email := by
    grind
  have hget := hnext.listed u ⟨key, by simp [Table.insert_of_ne _ hne, hkey]⟩
  simp only [MemoryValidator.get, heq, Table.insert_self, Option.some.injEq] at hget
  rw [hget] at hne
  exact hne (hfiled key u hkey)

end

/-- **Exactly the sequences without a shared id.** For every sequence of calls on
users with an e-mail, the registry is consistent throughout, rejected calls change
nothing and every `del` removes one user, if and only if no accepted `add` comes with
the processed id of a user listed at that time. -/
theorem sound_iff_clear (toLowercase : String → String) (cs : List Call) (hmail : Mailed cs) :
    Sound toLowercase cs ↔ Clear toLowercase cs :=
  ⟨clear_of_sound hmail, sound_of_clear hmail⟩

/-! ## Counterexample -/

def firstUser : MemoryUser := ⟨⟨.ofByte 0xAA, "", true, []⟩, "first@test"⟩

/-- Another person's id that differs from the first one's in byte 6. -/
def secondUser : MemoryUser :=
  ⟨⟨⟨(List.replicate 16 0xAA).set 6 0x42, rfl⟩, "", true, []⟩, "second@test"⟩

def otherUser : MemoryUser := ⟨⟨.ofByte 0xBB, "", true, []⟩, "other@test"⟩

theorem sound_iff_clear_two : Sound id [.add firstUser, .add otherUser, .del "first@test"] ↔
      Clear id [.add firstUser, .add otherUser, .del "first@test"] :=
  sound_iff_clear id _ (by
    intro user huser
    simp only [List.mem_cons, Call.add.injEq, List.not_mem_nil, or_false, reduceCtorEq] at huser
    rcases huser with rfl | rfl <;> decide)

/-- **Two users, one entry.** Both are accepted; the first one's id now leads to the
second user. After `del` of the first, the second is listed and no id finds it. -/
theorem calls_shared_id : new.call id (.add firstUser) = (.ok (), new.calls id [.add firstUser]) ∧
      (new.calls id [.add firstUser]).call id (.add secondUser) =
        (.ok (), new.calls id [.add firstUser, .add secondUser]) ∧
      (new.calls id [.add firstUser, .add secondUser]).get firstUser.account.id = some secondUser ∧
      firstUser ∈ (new.calls id [.add firstUser, .add secondUser]).getAll ∧
      (new.calls id [.add firstUser, .add secondUser]).call id (.del "first@test") =
        (.ok (), new.calls id [.add firstUser, .add secondUser, .del "first@test"]) ∧
      secondUser ∈ (new.calls id [.add firstUser, .add secondUser, .del "first@test"]).getAll ∧
      (new.calls id [.add firstUser, .add secondUser, .del "first@test"]).get secondUser.account.id = none ∧
      ¬ Sound id [.add firstUser, .add secondUser, .del "first@test"] := by
  have hget : (new.calls id [.add firstUser, .add secondUser]).get firstUser.account.id = some secondUser := by
    decide +kernel
  have hlisted : firstUser ∈ (new.calls id [.add firstUser, .add secondUser]).getAll :=
    ⟨"first@test", by decide +kernel⟩
  refine ⟨rfl, rfl, hget, hlisted, rfl, ⟨"second@test", by decide +kernel⟩, by decide +kernel, ?_⟩
  intro hsound
  have h := (hsound.consistent [.add firstUser, .add secondUser] [.del "first@test"] rfl).listed _ hlisted
  exact absurd h (by decide)

end Wrongsv.Bugs.ValidatorSharedId
