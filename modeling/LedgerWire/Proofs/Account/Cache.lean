import LedgerWire.Account.Cache
import Mathlib.Data.List.Induction
import Mathlib.Data.Set.Card

namespace LedgerWire.AccountCache

/-!
A cache under any run of calls. Each passphrase has the account of the first derivation for it that
succeeded, entered once and never changed; a derivation is run until one has succeeded and not after
that, and one that fails leaves no trace.
-/

/-- A call, with a derivation of its own. As it is run once at most, what it answers to a passphrase
is all that matters of it. -/
structure Call (ε : Type) where
  passphrase : String
  derive : String → Except ε Account

/-- What a call answers, the passphrases on which its derivation was run, and the cache after it. -/
structure Reply (ε : Type) where
  answer : Except ε Account
  derived : List String
  cache : AccountCache

variable {ε : Type}

/-- The derivation of a call, noting each passphrase that it is run on. -/
def Call.noted (call : Call ε) (passphrase : String) : StateM (List String) (Except ε Account) := do
  modify (passphrase :: ·)
  return call.derive passphrase

/-- Makes a call. -/
def reply (cache : AccountCache) (call : Call ε) : Reply ε :=
  let ((answer, after), derived) := (cache.getOrDerive call.passphrase call.noted).run []
  ⟨answer, derived, after⟩

/-- The cache after calls on a new one. -/
def after (calls : List (Call ε)) : AccountCache :=
  calls.foldl (fun cache call => (cache.reply call).cache) empty

/-- Whether one of the calls with this passphrase was answered with an account. -/
def Succeeded (calls : List (Call ε)) (passphrase : String) : Prop :=
  ∃ front call back account, calls = front ++ call :: back ∧ call.passphrase = passphrase ∧
    ((after front).reply call).answer = .ok account

/-- What the derivation of a call has for a passphrase, if the call is for that. -/
def Call.derivedFor? (passphrase : String) (call : Call ε) : Option Account :=
  if call.passphrase = passphrase then (call.derive passphrase).toOption else none

/-- The account of the first derivation for a passphrase that succeeds. -/
def firstDerived? (calls : List (Call ε)) (passphrase : String) : Option Account :=
  calls.findSome? (Call.derivedFor? passphrase)

/-- What a call can do: it finds its passphrase and changes nothing, or it runs its derivation, and
then keeps an account and no failure. -/
inductive Replies (cache : AccountCache) (call : Call ε) : Reply ε → Prop where
  | found {account : Account} (found : cache.find? call.passphrase = some account) :
      Replies cache call ⟨.ok account, [], cache⟩
  | derived {account : Account} (missing : cache.find? call.passphrase = none)
      (derived : call.derive call.passphrase = .ok account) :
      Replies cache call
        ⟨.ok account, [call.passphrase], ⟨cache.entries ++ [(call.passphrase, account)]⟩⟩
  | failed {cause : ε} (missing : cache.find? call.passphrase = none)
      (failed : call.derive call.passphrase = .error cause) :
      Replies cache call ⟨.error cause, [call.passphrase], cache⟩

/-- Every passphrase is entered once. -/
def Distinct (cache : AccountCache) : Prop :=
  (cache.entries.map Prod.fst).Nodup

section Step

variable {cache : AccountCache} {call : Call ε} {reply : Reply ε}

theorem replies_reply (cache : AccountCache) (call : Call ε) :
    Replies cache call (cache.reply call) := by
  cases found : cache.find? call.passphrase with
  | some account =>
      have replied : cache.reply call = ⟨.ok account, [], cache⟩ := by
        simp only [AccountCache.reply, getOrDerive, found]
        rfl
      exact replied ▸ .found found
  | none =>
      cases derived : call.derive call.passphrase with
      | ok account =>
          have replied : cache.reply call =
              ⟨.ok account, [call.passphrase], ⟨cache.entries ++ [(call.passphrase, account)]⟩⟩ := by
            simp [AccountCache.reply, getOrDerive, found, Call.noted, derived]
            rfl
          exact replied ▸ .derived found derived
      | error cause =>
          have replied : cache.reply call = ⟨.error cause, [call.passphrase], cache⟩ := by
            simp [AccountCache.reply, getOrDerive, found, Call.noted, derived]
            rfl
          exact replied ▸ .failed found derived

theorem isSome_find? (cache : AccountCache) (passphrase : String) :
    (cache.find? passphrase).isSome = true ↔ passphrase ∈ cache.entries.map Prod.fst := by
  rw [← not_iff_not, Bool.not_eq_true, Option.isSome_eq_false_iff, Option.isNone_iff_eq_none, find?,
    List.lookup_eq_none_iff, List.mem_map]
  constructor
  · rintro absent ⟨entry, member, rfl⟩
    exact bne_iff_ne.mp (absent entry member) rfl
  · intro absent entry member
    exact bne_iff_ne.mpr fun same => absent ⟨entry, member, same.symm⟩

theorem find?_append (cache : AccountCache) (entered passphrase : String) (account : Account) :
    AccountCache.find? ⟨cache.entries ++ [(entered, account)]⟩ passphrase =
      (cache.find? passphrase).or (if entered = passphrase then some account else none) := by
  rw [find?, List.lookup_append, find?, List.lookup_cons]
  by_cases same : entered = passphrase
  · rw [if_pos same, same, beq_self_eq_true]
  · rw [if_neg same, beq_eq_false_iff_ne.mpr (Ne.symm same), List.lookup_nil]

namespace Replies

variable (replies : Replies cache call reply)

include replies

theorem answer_eq : reply.answer =
    match cache.find? call.passphrase with
    | some account => .ok account
    | none => call.derive call.passphrase := by
  cases replies with
  | found found => rw [found]
  | derived missing derived => rw [missing, derived]
  | failed missing failed => rw [missing, failed]

theorem derived_eq : reply.derived =
    if (cache.find? call.passphrase).isSome then [] else [call.passphrase] := by
  cases replies with
  | found found => rw [found, Option.isSome_some, if_pos rfl]
  | derived missing => rw [missing, Option.isSome_none, if_neg Bool.false_ne_true]
  | failed missing => rw [missing, Option.isSome_none, if_neg Bool.false_ne_true]

theorem of_failure {cause : ε} (answered : reply.answer = .error cause) :
    call.derive call.passphrase = .error cause ∧ reply.cache = cache := by
  cases replies with
  | found => cases answered
  | derived => cases answered
  | failed _ failed => exact ⟨failed.trans answered, rfl⟩

/-- A call adds to the cache what its derivation has for a passphrase, unless that has an account. -/
theorem find?_eq (passphrase : String) : reply.cache.find? passphrase =
    (cache.find? passphrase).or (call.derivedFor? passphrase) := by
  by_cases own : call.passphrase = passphrase
  · subst own
    rw [Call.derivedFor?, if_pos rfl]
    cases replies with
    | found found => rw [found, Option.some_or]
    | derived missing derived =>
        rw [find?_append, if_pos rfl, derived]
        rfl
    | failed missing failed =>
        rw [failed]
        exact Option.or_none.symm
  · rw [Call.derivedFor?, if_neg own, Option.or_none]
    cases replies with
    | found => rfl
    | derived => rw [find?_append, if_neg own, Option.or_none]
    | failed => rfl

theorem entries_extend : cache.entries <+: reply.cache.entries := by
  cases replies with
  | found => exact List.prefix_refl _
  | derived => exact List.prefix_append _ _
  | failed => exact List.prefix_refl _

theorem distinct (distinct : cache.Distinct) : reply.cache.Distinct := by
  cases replies with
  | found => exact distinct
  | derived missing =>
      have absent : call.passphrase ∉ cache.entries.map Prod.fst := by
        rw [← isSome_find?, missing]
        exact Bool.false_ne_true
      rw [Distinct, List.map_append, List.map_singleton, ← List.concat_eq_append]
      exact distinct.concat absent
  | failed => exact distinct

end Replies

end Step

section Run

variable {calls : List (Call ε)}

theorem after_append_singleton (calls : List (Call ε)) (call : Call ε) :
    after (calls ++ [call]) = ((after calls).reply call).cache :=
  List.foldl_append

/-- A cache holds the accounts that were derived first. -/
theorem find?_after (calls : List (Call ε)) (passphrase : String) :
    (after calls).find? passphrase = firstDerived? calls passphrase := by
  induction calls using List.reverseRecOn with
  | nil => rfl
  | append_singleton calls call ih =>
      rw [after_append_singleton, (replies_reply _ call).find?_eq, ih, firstDerived?,
        firstDerived?, List.findSome?_append, List.findSome?_singleton]

theorem distinct_after (calls : List (Call ε)) : (after calls).Distinct := by
  induction calls using List.reverseRecOn with
  | nil => exact List.nodup_nil
  | append_singleton calls call ih =>
      rw [after_append_singleton]
      exact (replies_reply _ call).distinct ih

/-- Later calls only add entries. -/
theorem entries_after_append (calls later : List (Call ε)) :
    (after calls).entries <+: (after (calls ++ later)).entries := by
  induction later using List.reverseRecOn with
  | nil => rw [List.append_nil]
  | append_singleton later call ih =>
      rw [← List.append_assoc, after_append_singleton]
      exact ih.trans (replies_reply _ call).entries_extend

theorem succeeded_append_singleton (calls : List (Call ε)) (call : Call ε) (passphrase : String) :
    Succeeded (calls ++ [call]) passphrase ↔ Succeeded calls passphrase ∨
      call.passphrase = passphrase ∧ ∃ account, ((after calls).reply call).answer = .ok account := by
  constructor
  · rintro ⟨front, found, back, account, split, named, answered⟩
    rcases List.eq_nil_or_concat' back with rfl | ⟨others, last, rfl⟩
    · obtain ⟨rfl, same⟩ := List.append_inj' split rfl
      cases same
      exact Or.inr ⟨named, account, answered⟩
    · rw [← List.cons_append, ← List.append_assoc] at split
      obtain ⟨rfl, _⟩ := List.append_inj' split rfl
      exact Or.inl ⟨front, found, others, account, rfl, named, answered⟩
  · rintro (⟨front, found, back, account, rfl, named, answered⟩ | ⟨named, account, answered⟩)
    · exact ⟨front, found, back ++ [call], account, by simp, named, answered⟩
    · exact ⟨calls, call, [], account, rfl, named, answered⟩

theorem succeeded_iff (calls : List (Call ε)) (passphrase : String) :
    Succeeded calls passphrase ↔ ((after calls).find? passphrase).isSome = true := by
  induction calls using List.reverseRecOn with
  | nil =>
      refine iff_of_false ?_ Bool.false_ne_true
      rintro ⟨front, call, back, _, split, _⟩
      simp at split
  | append_singleton calls call ih =>
      rw [succeeded_append_singleton, ih, after_append_singleton, (replies_reply _ call).find?_eq,
        Option.isSome_or, Bool.or_eq_true, (replies_reply _ call).answer_eq, Call.derivedFor?]
      cases found : (after calls).find? passphrase with
      | some account => simp
      | none =>
          by_cases own : call.passphrase = passphrase
          · rw [own, found, if_pos rfl]
            cases call.derive passphrase <;> simp [Except.toOption]
          · simp [own]

/-- There are as many entries as passphrases with a success. -/
theorem size_after (calls : List (Call ε)) :
    (after calls).size = {passphrase | Succeeded calls passphrase}.ncard := by
  have entered : {passphrase | Succeeded calls passphrase} =
      (((after calls).entries.map Prod.fst).toFinset : Set String) := by
    rw [List.coe_toFinset]
    exact Set.ext fun passphrase => (succeeded_iff calls passphrase).trans (isSome_find? _ passphrase)
  rw [entered, Set.ncard_coe_finset, List.toFinset_card_of_nodup (distinct_after calls),
    List.length_map, size]

/-- An account that a call answers is the one derived first for its passphrase. -/
theorem firstDerived?_of_answer {call : Call ε} {account : Account}
    (answered : ((after calls).reply call).answer = .ok account) :
    firstDerived? (calls ++ [call]) call.passphrase = some account := by
  rw [← find?_after, after_append_singleton, (replies_reply _ call).find?_eq, Call.derivedFor?,
    if_pos rfl]
  rw [(replies_reply _ call).answer_eq] at answered
  cases found : (after calls).find? call.passphrase with
  | some entered =>
      rw [found] at answered
      cases answered
      exact Option.some_or
  | none =>
      rw [found] at answered
      have derived : call.derive call.passphrase = .ok account := answered
      rw [Option.none_or, derived]
      rfl

end Run

/-- What a call does that follows any others. Its derivation is run, once and on the call's own
passphrase, unless a call with that passphrase succeeded before; an account that it answers is the
one derived first for the passphrase; a failure is the derivation's own and leaves the cache as it
was. No entry of the cache is ever changed or doubled, and there are as many as passphrases with a
success. -/
theorem enters_first_success (calls : List (Call ε)) (call : Call ε) :
    (¬ Succeeded calls call.passphrase →
      ((after calls).reply call).derived = [call.passphrase]) ∧
    (Succeeded calls call.passphrase → ((after calls).reply call).derived = []) ∧
    (∀ account, ((after calls).reply call).answer = .ok account →
      firstDerived? (calls ++ [call]) call.passphrase = some account) ∧
    (∀ cause, ((after calls).reply call).answer = .error cause →
      call.derive call.passphrase = .error cause ∧
        ((after calls).reply call).cache = after calls) ∧
    (∀ later, (after calls).entries <+: (after (calls ++ later)).entries) ∧
    (after calls).Distinct ∧
    (after calls).size = {passphrase | Succeeded calls passphrase}.ncard := by
  have replies := replies_reply (after calls) call
  refine ⟨fun fresh => ?_, fun succeeded => ?_, fun account => firstDerived?_of_answer,
    fun cause => replies.of_failure, entries_after_append calls, distinct_after calls,
    size_after calls⟩
  · rw [replies.derived_eq, if_neg (mt (succeeded_iff calls _).mpr fresh)]
  · rw [replies.derived_eq, if_pos ((succeeded_iff calls _).mp succeeded)]

/-- A failure, an account for another passphrase, and then one for the first. -/
def retriedCalls : List (Call String) :=
  [⟨"masterpassphrase", fun _ => .error "no key"⟩, ⟨"other", fun _ => .ok Account.zero⟩,
    ⟨"masterpassphrase", fun _ => .ok Account.one⟩]

/-- A derivation that would answer another account. -/
def contestingCall : Call String :=
  ⟨"masterpassphrase", fun _ => .ok Account.zero⟩

/-- The contesting call is answered with the entered account; a call that fails is answered with its
failure. -/
theorem enters_first_success_contested :
    Succeeded retriedCalls "masterpassphrase" ∧
      ((after retriedCalls).reply contestingCall).derived = [] ∧
      firstDerived? (retriedCalls ++ [contestingCall]) "masterpassphrase" = some Account.one ∧
      (after retriedCalls).size = 2 ∧
      ¬ Succeeded retriedCalls "bad" ∧
      ((after retriedCalls).reply ⟨"bad", fun _ => .error "no key"⟩).derived = ["bad"] ∧
      ((after retriedCalls).reply ⟨"bad", fun _ => .error "no key"⟩).cache = after retriedCalls := by
  have entered : (after retriedCalls).find? "masterpassphrase" = some Account.one := by decide +kernel
  have missing : (after retriedCalls).find? "bad" = none := by decide +kernel
  have succeeded : Succeeded retriedCalls "masterpassphrase" :=
    (succeeded_iff _ _).mpr (entered ▸ rfl)
  have fresh : ¬ Succeeded retriedCalls "bad" := by
    rw [succeeded_iff, missing]
    exact Bool.false_ne_true
  have answered : ((after retriedCalls).reply contestingCall).answer = .ok Account.one := by
    rw [(replies_reply _ _).answer_eq]
    exact entered ▸ rfl
  have failed : ((after retriedCalls).reply ⟨"bad", fun _ => .error "no key"⟩).answer =
      .error "no key" := by
    rw [(replies_reply _ _).answer_eq, missing]
  obtain ⟨_, kept, first, _⟩ := enters_first_success retriedCalls contestingCall
  obtain ⟨run, _, _, failure, _⟩ :=
    enters_first_success retriedCalls ⟨"bad", fun _ => .error "no key"⟩
  exact ⟨succeeded, kept succeeded, first _ answered, by decide +kernel, fresh, run fresh,
    (failure _ failed).2⟩

end LedgerWire.AccountCache
