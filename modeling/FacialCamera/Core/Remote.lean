import FacialCamera.Core.Machine

/-! # A client of a server it can only wait for

The client issues requests and goes on; what it does with their answers it does
when they arrive. Several requests can share one promise, which resolves when all
of them are answered and is rejected when one of them fails. The network decides
when the server executes a request, when and in which order promises settle, and
whether an answer is lost: a rejected promise may have been executed, or may still
be.
-/

namespace FacialCamera.Core

/-- A promise: what the client wants with it, and the requests it waits for, each with the
answer of the server that has executed it (`some none` where it refused). -/
structure Exchange (τ ρ β : Type) where
  tag : τ
  parts : List (ρ × Option (Option β))
  settled : Bool
  deriving DecidableEq

namespace Exchange

variable {τ ρ β : Type}

def start (tag : τ) (requests : List ρ) : Exchange τ ρ β :=
  ⟨tag, requests.map fun r => (r, none), false⟩

def answer (parts : List (ρ × Option (Option β))) (j : Nat) (a : Option β) :
    List (ρ × Option (Option β)) :=
  parts.modify j fun part => (part.1, some a)

/-- What `Promise.all` resolves with, once every part was answered and none refused. -/
def results : List (ρ × Option (Option β)) → Option (List β)
  | [] => some []
  | (_, some (some b)) :: rest => (results rest).map fun bs => b :: bs
  | (_, _) :: _ => none

theorem forall₂_of_results {parts : List (ρ × Option (Option β))} {bs : List β}
    (h : results parts = some bs) :
    List.Forall₂ (fun part b => part.2 = some (some b)) parts bs := by
  induction parts generalizing bs with
  | nil =>
      cases h
      exact .nil
  | cons part rest ih =>
      obtain ⟨r, a⟩ := part
      match a, h with
      | some (some b), h =>
          obtain ⟨bs', hrest, rfl⟩ := Option.map_eq_some_iff.mp h
          exact .cons rfl (ih hrest)

/-- Every part of a resolved promise has been answered. -/
theorem answered_of_results {parts : List (ρ × Option (Option β))} {bs : List β}
    (h : results parts = some bs) {part : ρ × Option (Option β)} (hpart : part ∈ parts) :
    ∃ b, part.2 = some (some b) := by
  have hall := forall₂_of_results h
  clear h
  induction hall with
  | nil => cases hpart
  | cons hb _ ih =>
      rcases List.mem_cons.mp hpart with rfl | hpart
      · exact ⟨_, hb⟩
      · exact ih hpart

@[simp] theorem map_fst_answer (parts : List (ρ × Option (Option β))) (j : Nat) (a : Option β) :
    (answer parts j a).map Prod.fst = parts.map Prod.fst := by
  induction parts generalizing j with
  | nil => cases j <;> rfl
  | cons part rest ih =>
      cases j with
      | zero => rfl
      | succ j => exact congrArg (List.cons part.1) (ih j)

/-- Only part `j` changes. -/
theorem mem_answer {parts : List (ρ × Option (Option β))} {j : Nat} {a : Option β} {r : ρ}
    {old : Option (Option β)} (hj : parts[j]? = some (r, old)) {part : ρ × Option (Option β)}
    (h : part ∈ answer parts j a) : part = (r, some a) ∨ part ∈ parts := by
  induction parts generalizing j with
  | nil => cases hj
  | cons head rest ih =>
      cases j with
      | zero =>
          cases hj
          rcases List.mem_cons.mp h with rfl | h
          · exact Or.inl rfl
          · exact Or.inr (List.mem_cons_of_mem _ h)
      | succ j =>
          rcases List.mem_cons.mp h with rfl | h
          · exact Or.inr List.mem_cons_self
          · exact (ih hj h).imp_right (List.mem_cons_of_mem _)

end Exchange

/-- What the client does on its own, and with a promise that was resolved or rejected; each
time it may issue further promises. -/
structure Client (γ ε τ ρ β : Type) where
  act : ε → γ → Option (γ × List (τ × List ρ))
  resolve : τ → List β → γ → γ × List (τ × List ρ)
  reject : τ → γ → γ × List (τ × List ρ)

/-- The server with everything that moves it besides this client's requests. An execution
looks at its surroundings `ξ`. -/
structure Server (σ ℓ ξ ρ β : Type) where
  own : Machine σ ℓ
  execute : ξ → ρ → σ → Option β × σ

structure Remote (γ σ τ ρ β : Type) where
  client : γ
  server : σ
  exchanges : List (Exchange τ ρ β)

inductive Move (ε ℓ ξ : Type) where
  | act (e : ε)
  | own (l : ℓ)
  | execute (i j : Nat) (x : ξ)
  | resolve (i : Nat)
  | reject (i : Nat)

namespace Remote

variable {γ σ τ ρ β ε ℓ ξ : Type}

def idle (client : γ) (server : σ) : Remote γ σ τ ρ β := ⟨client, server, []⟩

def issue (s : Remote γ σ τ ρ β) (out : γ × List (τ × List ρ)) : Remote γ σ τ ρ β :=
  { s with
    client := out.1
    exchanges := s.exchanges ++ out.2.map fun promise => .start promise.1 promise.2 }

def executed (s : Remote γ σ τ ρ β) (i j : Nat) (ex : Exchange τ ρ β) (out : Option β × σ) :
    Remote γ σ τ ρ β :=
  { s with
    server := out.2
    exchanges := s.exchanges.set i { ex with parts := Exchange.answer ex.parts j out.1 } }

def settle (s : Remote γ σ τ ρ β) (i : Nat) (ex : Exchange τ ρ β) : Remote γ σ τ ρ β :=
  { s with exchanges := s.exchanges.set i { ex with settled := true } }

def next (C : Client γ ε τ ρ β) (S : Server σ ℓ ξ ρ β) (s : Remote γ σ τ ρ β) :
    Move ε ℓ ξ → Option (Remote γ σ τ ρ β)
  | .act e => (C.act e s.client).map s.issue
  | .own l => (S.own.next s.server l).map fun server => { s with server }
  | .execute i j x =>
      match s.exchanges[i]? with
      | none => none
      | some ex =>
          match ex.parts[j]? with
          | some (r, none) => some (s.executed i j ex (S.execute x r s.server))
          | _ => none
  | .resolve i =>
      match s.exchanges[i]? with
      | none => none
      | some ex =>
          if ex.settled then none
          else (Exchange.results ex.parts).map fun bs =>
            (s.settle i ex).issue (C.resolve ex.tag bs s.client)
  | .reject i =>
      match s.exchanges[i]? with
      | none => none
      | some ex =>
          if ex.settled then none else some ((s.settle i ex).issue (C.reject ex.tag s.client))

end Remote

def remote {γ σ τ ρ β ε ℓ ξ : Type} (C : Client γ ε τ ρ β) (S : Server σ ℓ ξ ρ β) :
    Machine (Remote γ σ τ ρ β) (Move ε ℓ ξ) where
  next := Remote.next C S

namespace Remote

variable {γ σ τ ρ β ε ℓ ξ : Type} {C : Client γ ε τ ρ β} {S : Server σ ℓ ξ ρ β}
  {s s' s₀ : Remote γ σ τ ρ β} {m : Move ε ℓ ξ}

/-- One arm for each kind of move. -/
inductive Moves (C : Client γ ε τ ρ β) (S : Server σ ℓ ξ ρ β) (s : Remote γ σ τ ρ β) :
    Move ε ℓ ξ → Remote γ σ τ ρ β → Prop where
  | act {e : ε} {out : γ × List (τ × List ρ)} :
      C.act e s.client = some out → Moves C S s (.act e) (s.issue out)
  | own {l : ℓ} {server : σ} :
      S.own.next s.server l = some server → Moves C S s (.own l) { s with server }
  | execute {i j : Nat} {x : ξ} {ex : Exchange τ ρ β} {r : ρ} :
      s.exchanges[i]? = some ex → ex.parts[j]? = some (r, none) →
      Moves C S s (.execute i j x) (s.executed i j ex (S.execute x r s.server))
  | resolve {i : Nat} {ex : Exchange τ ρ β} {bs : List β} :
      s.exchanges[i]? = some ex → ex.settled = false → Exchange.results ex.parts = some bs →
      Moves C S s (.resolve i) ((s.settle i ex).issue (C.resolve ex.tag bs s.client))
  | reject {i : Nat} {ex : Exchange τ ρ β} :
      s.exchanges[i]? = some ex → ex.settled = false →
      Moves C S s (.reject i) ((s.settle i ex).issue (C.reject ex.tag s.client))

theorem moves_of_next (h : (remote C S).next s m = some s') : Moves C S s m s' := by
  cases m with
  | act e =>
      obtain ⟨out, hact, rfl⟩ := Option.map_eq_some_iff.mp h
      exact .act hact
  | own l =>
      obtain ⟨server, hown, rfl⟩ := Option.map_eq_some_iff.mp h
      exact .own hown
  | execute i j x =>
      simp only [remote, next] at h
      split at h
      case h_1 => cases h
      case h_2 ex hex =>
        split at h
        case h_1 r hpart =>
          cases h
          exact .execute hex hpart
        case h_2 => cases h
  | resolve i =>
      simp only [remote, next] at h
      split at h
      case h_1 => cases h
      case h_2 ex hex =>
        split at h
        case isTrue => cases h
        case isFalse hopen =>
          obtain ⟨bs, hbs, rfl⟩ := Option.map_eq_some_iff.mp h
          exact .resolve hex (by simpa using hopen) hbs
  | reject i =>
      simp only [remote, next] at h
      split at h
      case h_1 => cases h
      case h_2 ex hex =>
        split at h
        case isTrue => cases h
        case isFalse hopen =>
          cases h
          exact .reject hex (by simpa using hopen)

/-! ## Invariants of the two sides and of each promise -/

/-- What each side has to keep: `I` of client and server, and `E` of every promise, whoever
moves the server meanwhile. -/
structure Upheld (C : Client γ ε τ ρ β) (S : Server σ ℓ ξ ρ β) (I : γ → σ → Prop)
    (E : σ → τ → List (ρ × Option (Option β)) → Prop) : Prop where
  act : ∀ c s e out, I c s → C.act e c = some out →
    I out.1 s ∧ ∀ new ∈ out.2, E s new.1 (new.2.map fun r => (r, none))
  own : ∀ c s l s', I c s → S.own.next s l = some s' →
    I c s' ∧ ∀ tag parts, E s tag parts → E s' tag parts
  execute : ∀ c s x r, I c s →
    I c (S.execute x r s).2 ∧ ∀ tag parts, E s tag parts → E (S.execute x r s).2 tag parts ∧
      ∀ j, parts[j]? = some (r, none) →
        E (S.execute x r s).2 tag (Exchange.answer parts j (S.execute x r s).1)
  resolve : ∀ c s tag parts bs, I c s → E s tag parts → Exchange.results parts = some bs →
    I (C.resolve tag bs c).1 s ∧
      ∀ new ∈ (C.resolve tag bs c).2, E s new.1 (new.2.map fun r => (r, none))
  reject : ∀ c s tag parts, I c s → E s tag parts →
    I (C.reject tag c).1 s ∧
      ∀ new ∈ (C.reject tag c).2, E s new.1 (new.2.map fun r => (r, none))

structure Holds (I : γ → σ → Prop) (E : σ → τ → List (ρ × Option (Option β)) → Prop)
    (s : Remote γ σ τ ρ β) : Prop where
  sides : I s.client s.server
  promises : ∀ ex ∈ s.exchanges, E s.server ex.tag ex.parts

variable {I : γ → σ → Prop} {E : σ → τ → List (ρ × Option (Option β)) → Prop}

theorem Holds.issue (h : Holds I E s) {out : γ × List (τ × List ρ)} (hside : I out.1 s.server)
    (hnew : ∀ new ∈ out.2, E s.server new.1 (new.2.map fun r => (r, none))) :
    Holds I E (s.issue out) := by
  refine ⟨hside, fun ex hex => ?_⟩
  rcases List.mem_append.mp hex with hex | hex
  · exact h.promises ex hex
  · obtain ⟨new, hmem, rfl⟩ := List.mem_map.mp hex
    exact hnew new hmem

theorem Holds.settle (h : Holds I E s) {i : Nat} {ex : Exchange τ ρ β}
    (hex : s.exchanges[i]? = some ex) : Holds I E (s.settle i ex) := by
  refine ⟨h.sides, fun other hother => ?_⟩
  rcases List.mem_or_eq_of_mem_set hother with hother | rfl
  · exact h.promises other hother
  · exact h.promises ex (List.mem_of_getElem? hex)

theorem Upheld.step (hup : Upheld C S I E) (h : Holds I E s)
    (hnext : (remote C S).next s m = some s') : Holds I E s' := by
  cases moves_of_next hnext with
  | act hact =>
      have hkept := hup.act _ _ _ _ h.sides hact
      exact h.issue hkept.1 hkept.2
  | own hown =>
      have hkept := hup.own _ _ _ _ h.sides hown
      exact ⟨hkept.1, fun ex hex => hkept.2 _ _ (h.promises ex hex)⟩
  | @execute i j x ex r hex hpart =>
      have hkept := hup.execute _ _ x r h.sides
      refine ⟨hkept.1, fun other hother => ?_⟩
      rcases List.mem_or_eq_of_mem_set hother with hother | rfl
      · exact (hkept.2 _ _ (h.promises other hother)).1
      · exact (hkept.2 _ _ (h.promises ex (List.mem_of_getElem? hex))).2 j hpart
  | @resolve i ex bs hex _ hbs =>
      have hkept := hup.resolve _ _ _ _ _ h.sides (h.promises ex (List.mem_of_getElem? hex)) hbs
      exact (h.settle hex).issue hkept.1 hkept.2
  | @reject i ex hex _ =>
      have hkept := hup.reject _ _ _ _ h.sides (h.promises ex (List.mem_of_getElem? hex))
      exact (h.settle hex).issue hkept.1 hkept.2

/-- The invariant rule. -/
theorem Upheld.run (hup : Upheld C S I E) {c : γ} {server : σ} (h₀ : I c server)
    {ts : List (Transition (Remote γ σ τ ρ β) (Move ε ℓ ξ))}
    (hrun : (remote C S).Run (idle c server) ts s) : Holds I E s :=
  hrun.invariant ⟨h₀, fun _ hex => by cases hex⟩ fun _ _ _ h hnext => hup.step h hnext

/-- What a move resolves, and with which answers. -/
def arrival (s : Remote γ σ τ ρ β) : Move ε ℓ ξ → Option (τ × List β)
  | .resolve i =>
      s.exchanges[i]?.bind fun ex => (Exchange.results ex.parts).map fun bs => (ex.tag, bs)
  | _ => none

/-- The promise of an arrival. -/
theorem Holds.of_arrival (h : Holds I E s) {tag : τ} {bs : List β}
    (harrival : s.arrival m = some (tag, bs)) :
    ∃ parts, E s.server tag parts ∧ Exchange.results parts = some bs := by
  cases m with
  | resolve i =>
      obtain ⟨ex, hex, hresults⟩ := Option.bind_eq_some_iff.mp harrival
      obtain ⟨_, hbs, heq⟩ := Option.map_eq_some_iff.mp hresults
      cases heq
      exact ⟨ex.parts, h.promises ex (List.mem_of_getElem? hex), hbs⟩
  | _ => cases harrival

/-! ## Promises by position -/

variable {i k : Nat} {ex ex' : Exchange τ ρ β}

theorem getElem?_issue {out : γ × List (τ × List ρ)}
    (h : (s.issue out).exchanges[i]? = some ex) :
    s.exchanges[i]? = some ex ∨
      s.exchanges.length ≤ i ∧ ∃ new ∈ out.2, ex = .start new.1 new.2 := by
  rw [issue] at h
  by_cases hi : i < s.exchanges.length
  · exact Or.inl ((List.getElem?_append_left hi).symm.trans h)
  · have hle : s.exchanges.length ≤ i := Nat.le_of_not_lt hi
    rw [List.getElem?_append_right hle] at h
    obtain ⟨new, hnew, rfl⟩ := List.mem_map.mp (List.mem_of_getElem? h)
    exact Or.inr ⟨hle, new, hnew, rfl⟩

theorem getElem?_settle (h : (s.settle k ex').exchanges[i]? = some ex) :
    (i = k ∧ ex = { ex' with settled := true }) ∨ (i ≠ k ∧ s.exchanges[i]? = some ex) :=
  getElem?_set_cases h

theorem getElem?_executed {j : Nat} {out : Option β × σ}
    (h : (s.executed k j ex' out).exchanges[i]? = some ex) :
    (i = k ∧ ex = { ex' with parts := Exchange.answer ex'.parts j out.1 }) ∨
      (i ≠ k ∧ s.exchanges[i]? = some ex) :=
  getElem?_set_cases h

end Remote

end FacialCamera.Core
