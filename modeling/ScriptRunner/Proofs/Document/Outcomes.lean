import ScriptRunner.Document.Decoder

/-!
# Outcomes made of others

An outcome made of others succeeds exactly when they do: in sequence (`bind_eq_ok_iff`), under a function
(`map_eq_ok_iff`), with its error put differently (`mapError_eq_ok_iff`), and inside a collection, which takes one level
off the room (`Decoder.inside_eq_ok_iff`). A mismatch never succeeds (`Decoder.mismatch_ne_ok`). A sequence fails where
its first failure is (`bind_eq_error_iff`). A list of outcomes succeeds where its parts do (`mapM_append_eq_ok_iff`).
-/

namespace ScriptRunner

section Outcomes

variable {ε ε' α β : Type}

theorem bind_eq_ok_iff {x : Except ε α} {f : α → Except ε β} {b : β} :
    x >>= f = .ok b ↔ ∃ a, x = .ok a ∧ f a = .ok b := by
  cases x <;> simp [bind, Except.bind]

theorem map_eq_ok_iff {x : Except ε α} {f : α → β} {b : β} : x.map f = .ok b ↔ ∃ a, x = .ok a ∧ f a = b := by
  cases x <;> simp [Except.map]

theorem mapError_eq_ok_iff {x : Except ε α} {f : ε → ε'} {a : α} : x.mapError f = .ok a ↔ x = .ok a := by
  cases x with
  | error e => exact iff_of_false (fun h => by cases h) (fun h => by cases h)
  | ok b => exact ⟨fun h => congrArg _ (Except.ok.inj h), fun h => congrArg _ (Except.ok.inj h)⟩

theorem toOption_eq_some_iff {x : Except ε α} {a : α} : x.toOption = some a ↔ x = .ok a := by
  cases x <;> simp [Except.toOption]

theorem bind_eq_error_iff {x : Except ε α} {f : α → Except ε β} {e : ε} :
    x >>= f = .error e ↔ x = .error e ∨ ∃ a, x = .ok a ∧ f a = .error e := by
  cases x <;> simp [bind, Except.bind]

theorem mapM_cons_eq_ok_iff {f : α → Except ε β} {x : α} {xs : List α} {ys : List β} :
    (x :: xs).mapM f = .ok ys ↔ ∃ y zs, f x = .ok y ∧ xs.mapM f = .ok zs ∧ y :: zs = ys := by
  rw [List.mapM_cons, bind_eq_ok_iff]
  constructor
  · rintro ⟨y, hy, h⟩
    obtain ⟨zs, hzs, h⟩ := bind_eq_ok_iff.1 h
    exact ⟨y, zs, hy, hzs, Except.ok.inj h⟩
  · rintro ⟨y, zs, hy, hzs, rfl⟩
    exact ⟨y, hy, bind_eq_ok_iff.2 ⟨zs, hzs, rfl⟩⟩

theorem mapM_append_eq_ok_iff {f : α → Except ε β} {xs xs' : List α} {ys : List β} :
    (xs ++ xs').mapM f = .ok ys ↔ ∃ as bs, xs.mapM f = .ok as ∧ xs'.mapM f = .ok bs ∧ as ++ bs = ys := by
  rw [List.mapM_append, bind_eq_ok_iff]
  constructor
  · rintro ⟨as, has, h⟩
    obtain ⟨bs, hbs, h⟩ := bind_eq_ok_iff.1 h
    exact ⟨as, bs, has, hbs, Except.ok.inj h⟩
  · rintro ⟨as, bs, has, hbs, rfl⟩
    exact ⟨as, has, bind_eq_ok_iff.2 ⟨bs, hbs, rfl⟩⟩

theorem mapError_eq_error_iff {x : Except ε α} {f : ε → ε'} {e' : ε'} :
    x.mapError f = .error e' ↔ ∃ e, x = .error e ∧ f e = e' := by
  constructor
  · intro h
    cases x with
    | error e => exact ⟨e, rfl, Except.error.inj h⟩
    | ok a => cases h
  · rintro ⟨e, rfl, rfl⟩
    rfl

end Outcomes

namespace Decoder

variable {α : Type} {p q : Place} {a : α} {work : Place → Except Failure α}

theorem enter_eq_ok_iff : p.enter = .ok q ↔ p.room = q.room + 1 ∧ p.path = q.path := by
  obtain ⟨path, room⟩ := p
  obtain ⟨path', room'⟩ := q
  cases room with
  | zero => simp [Place.enter]
  | succ n => simp [Place.enter, eq_comm, and_comm]

theorem inside_eq_ok_iff : inside p work = .ok a ↔ ∃ n, p.room = n + 1 ∧ work ⟨p.path, n⟩ = .ok a := by
  rw [inside, mapError_eq_ok_iff, bind_eq_ok_iff]
  constructor
  · rintro ⟨q, hq, hw⟩
    obtain ⟨hroom, hpath⟩ := enter_eq_ok_iff.1 hq
    exact ⟨q.room, hroom, by rw [hpath]; exact hw⟩
  · rintro ⟨n, hroom, hw⟩
    exact ⟨⟨p.path, n⟩, enter_eq_ok_iff.2 ⟨hroom, rfl⟩, hw⟩

theorem atPlace_eq_ok_iff {x : Except Cause α} : atPlace p x = .ok a ↔ x = .ok a := by
  cases x <;> simp [atPlace]

theorem mismatch_ne_ok {σ : Type} [Format σ] {want : String} {d : Document σ} : mismatch want p d ≠ .ok a := by
  intro h
  cases d with
  | scalar s =>
    obtain ⟨got, -, h⟩ := bind_eq_ok_iff.1 (atPlace_eq_ok_iff.1 h)
    cases h
  | sequence items => cases h
  | mapping entries => cases h
  | damaged => cases h

end Decoder

end ScriptRunner
