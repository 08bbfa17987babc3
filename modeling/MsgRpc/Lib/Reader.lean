import Mathlib

/-!
This module contains readers, programs that take elements from the front of a list and may fail, and
the rules for what a reader makes of a chunk it reads whatever comes behind the chunk.
-/

abbrev Reader (β : Type) := StateT (List β) Option

namespace Reader

variable {β α α' : Type}

/--
`x` takes `chunk` from the front and returns `a`.
-/
def Reads (x : Reader β α) (chunk : List β) (a : α) : Prop :=
  ∀ rest, x (chunk ++ rest) = some (a, rest)

-- what both sides of a format are made of
structure Wire (β α : Type) where
  write : α → List β
  read : Reader β α

/--
The elements `xs` are written one after the other, if all of them can be.
-/
def writeAll {γ : Type*} (write : γ → Option (List β)) (xs : List γ) : Option (List β) :=
  match xs with
  | [] => some []
  | x :: xs => do
    let chunk ← write x
    let chunks ← writeAll write xs
    return chunk ++ chunks

/--
`n` steps that each read something into what has been read so far.
-/
def iterate (step : α → Reader β α) (n : Nat) (a : α) : Reader β α :=
  match n with
  | 0 => pure a
  | n + 1 => do
    let a ← step a
    iterate step n a

theorem exists_of_bind {x : Reader β α} {f : α → Reader β α'} {s : List β} {p : α' × List β}
    (h : (x >>= f) s = some p)
    : ∃ a s', x s = some (a, s') ∧ f a s' = some p := by
  change (x s).bind (fun q => f q.1 q.2) = some p at h
  obtain ⟨q, hx, hf⟩ := Option.bind_eq_some_iff.mp h
  exact ⟨q.1, q.2, hx, hf⟩

theorem eq_of_pure {a : α} {s : List β} {p : α × List β} (h : (pure a : Reader β α) s = some p)
    : p = (a, s) := by
  change some (a, s) = some p at h
  exact (Option.some.inj h).symm

theorem failure_ne_some {s : List β} {p : α × List β} : (failure : Reader β α) s ≠ some p := by
  change none ≠ some p
  simp

theorem get_bind_apply (f : List β → Reader β α) (s : List β) : (get >>= f) s = f s s := rfl

namespace Reads

variable {x : Reader β α} {f : α → Reader β α'} {chunk chunk' : List β} {a : α} {b : α'}

theorem pure (a : α) : Reads (pure a : Reader β α) [] a := by
  intro rest
  rfl

theorem bind (hx : Reads x chunk a) (hf : Reads (f a) chunk' b)
    : Reads (x >>= f) (chunk ++ chunk') b := by
  intro rest
  change (x (chunk ++ chunk' ++ rest)).bind (fun p => f p.1 p.2) = some (b, rest)
  rw [List.append_assoc, hx]
  exact hf rest

-- what comes behind the chunk is left to `f`
theorem bind_apply (hx : Reads x chunk a) (f : α → Reader β α') (rest : List β)
    : (x >>= f) (chunk ++ rest) = f a rest := by
  change (x (chunk ++ rest)).bind (fun p => f p.1 p.2) = f a rest
  rw [hx]
  rfl

theorem bind_pure {g : α → α'} (hx : Reads x chunk a)
    : Reads (x >>= fun a => Pure.pure (g a)) chunk (g a) := by
  intro rest
  change (x (chunk ++ rest)).bind (fun p => some (g p.1, p.2)) = some (g a, rest)
  rw [hx]
  rfl

-- a reader that reads nothing behind
theorem bind_nil (hx : Reads x chunk a) (hf : Reads (f a) [] b) : Reads (x >>= f) chunk b := by
  have h := hx.bind hf
  rwa [List.append_nil] at h

-- a reader that depends on all that is left
theorem with_get {h : List β → Reader β α}
    (hreads : ∀ s, chunk.length ≤ s.length → Reads (h s) chunk a)
    : Reads (get >>= h) chunk a := by
  intro rest
  change h (chunk ++ rest) (chunk ++ rest) = some (a, rest)
  apply hreads
  simp

theorem eq_of_nil {a' : α} (h : Reads x [] a) (h' : Reads x chunk a') : a = a' := by
  have heq := h' []
  rw [← List.nil_append (chunk ++ []), h] at heq
  simp only [Option.some.injEq, Prod.mk.injEq] at heq
  exact heq.1

-- elements that have been written in turn are read in turn
theorem iterate {γ : Type} {write : γ → Option (List β)} {step : α → Reader β α}
    {next : α → γ → α} {xs : List γ} (hxs : writeAll write xs = some chunk)
    (hstep : ∀ a, ∀ x ∈ xs, ∀ chunk, write x = some chunk → Reads (step a) chunk (next a x))
    (a : α)
    : Reads (iterate step xs.length a) chunk (xs.foldl next a) := by
  induction xs generalizing chunk a with
  | nil =>
    simp only [writeAll, Option.some.injEq] at hxs
    rw [← hxs]
    exact Reads.pure a
  | cons x xs ih =>
    simp only [writeAll, Option.bind_eq_bind, Option.bind_eq_some_iff, Option.pure_def,
      Option.some.injEq] at hxs
    obtain ⟨chunk1, hx, chunk2, hrest, rfl⟩ := hxs
    apply bind (hstep a x List.mem_cons_self chunk1 hx)
    apply ih hrest
    intro a x hmem
    exact hstep a x (List.mem_cons_of_mem _ hmem)

end Reads

/--
`P` holds of the elements in turn, up to the first one of which `Q` does not hold.
-/
def InTurn {γ : Type} (P Q : γ → Prop) (xs : List γ) : Prop :=
  match xs with
  | [] => True
  | x :: xs => P x ∧ (Q x → InTurn P Q xs)

theorem InTurn.forall {γ : Type} {P Q : γ → Prop} {xs : List γ} (h : InTurn P Q xs)
    (hQ : ∀ x ∈ xs, P x → Q x)
    : ∀ x ∈ xs, P x := by
  induction xs with
  | nil => simp
  | cons x xs ih =>
    rw [List.forall_mem_cons]
    refine ⟨h.1, ?_⟩
    apply ih (h.2 (hQ x List.mem_cons_self h.1))
    intro y hmem
    exact hQ y (List.mem_cons_of_mem _ hmem)

theorem InTurn.of_forall {γ : Type} {P Q : γ → Prop} {xs : List γ} (h : ∀ x ∈ xs, P x)
    : InTurn P Q xs := by
  induction xs with
  | nil => trivial
  | cons x xs ih =>
    rw [List.forall_mem_cons] at h
    exact ⟨h.1, fun _ => ih h.2⟩

theorem InTurn.exists_of_not {γ : Type} {P Q : γ → Prop} {xs : List γ} (h : ¬InTurn P Q xs)
    : ∃ before x after, xs = before ++ x :: after ∧ InTurn P Q before ∧ ¬P x := by
  induction xs with
  | nil => exact absurd trivial h
  | cons x xs ih =>
    by_cases hx : P x
    . have hxs : ¬InTurn P Q xs := fun hxs => h ⟨hx, fun _ => hxs⟩
      obtain ⟨before, y, after, rfl, hbefore, hy⟩ := ih hxs
      exact ⟨x :: before, y, after, rfl, ⟨hx, fun _ => hbefore⟩, hy⟩
    . exact ⟨[], x, xs, rfl, trivial, hx⟩

/--
`x` takes `chunk` from the front and returns what `o` holds. It fails whatever comes behind `chunk`
if that is nothing.
-/
def Yields (x : Reader β α) (chunk : List β) (o : Option α) : Prop :=
  ∀ rest, x (chunk ++ rest) = o.map fun a => (a, rest)

theorem Reads.yields {x : Reader β α} {chunk : List β} {a : α} (h : Reads x chunk a)
    : Yields x chunk (some a) := by
  intro rest
  exact h rest

namespace Yields

variable {γ : Type} {x : Reader β α} {f : α → Reader β α'} {chunk chunk' : List β} {o : Option α}
variable {g : α → Option α'}

theorem bind (hx : Yields x chunk o) (hf : ∀ a, o = some a → Yields (f a) chunk' (g a))
    : Yields (x >>= f) (chunk ++ chunk') (o.bind g) := by
  intro rest
  change (x (chunk ++ chunk' ++ rest)).bind (fun p => f p.1 p.2) = _
  rw [List.append_assoc, hx]
  cases o with
  | none => rfl
  | some a => exact hf a rfl rest

theorem bind_apply (hx : Yields x chunk o) (f : α → Reader β α') (rest : List β)
    : (x >>= f) (chunk ++ rest) = o.bind fun a => f a rest := by
  change (x (chunk ++ rest)).bind (fun p => f p.1 p.2) = _
  rw [hx]
  cases o <;> rfl

theorem bind_map {k : α → γ} {f : γ → Reader β α'} {x : Reader β γ} (hx : Yields x chunk (o.map k))
    (hf : ∀ a, o = some a → Yields (f (k a)) chunk' (g a))
    : Yields (x >>= f) (chunk ++ chunk') (o.bind g) := by
  intro rest
  change (x (chunk ++ chunk' ++ rest)).bind (fun p => f p.1 p.2) = _
  rw [List.append_assoc, hx]
  cases o with
  | none => rfl
  | some a => exact hf a rfl rest

theorem bind_reads {a : α} {o' : Option α'} (hx : Reads x chunk a) (hf : Yields (f a) chunk' o')
    : Yields (x >>= f) (chunk ++ chunk') o' := by
  intro rest
  change (x (chunk ++ chunk' ++ rest)).bind (fun p => f p.1 p.2) = _
  rw [List.append_assoc, hx]
  exact hf rest

theorem bind_reads_nil {a : α} {o' : Option α'} (hx : Reads x chunk a) (hf : Yields (f a) [] o')
    : Yields (x >>= f) chunk o' := by
  have h := bind_reads hx hf
  rwa [List.append_nil] at h

theorem bind_pure {g : α → α'} (hx : Yields x chunk o)
    : Yields (x >>= fun a => Pure.pure (g a)) chunk (o.map g) := by
  intro rest
  change (x (chunk ++ rest)).bind (fun p => some (g p.1, p.2)) = _
  rw [hx]
  cases o <;> rfl

theorem with_get {h : List β → Reader β α}
    (hyields : ∀ s, chunk.length ≤ s.length → Yields (h s) chunk o)
    : Yields (get >>= h) chunk o := by
  intro rest
  change h (chunk ++ rest) (chunk ++ rest) = _
  apply hyields
  simp

-- steps that each take an element, until one fails. Nothing has to be known of the elements
-- behind.
theorem iterate {write : γ → List β} {step : α → Reader β α} {next : α → γ → Option α}
    {P Q : γ → Prop} {xs : List γ} (hxs : InTurn P Q xs)
    (hstep : ∀ a, ∀ x ∈ xs, P x → Yields (step a) (write x) (next a x)
      ∧ ∀ a', next a x = some a' → Q x)
    (a : α)
    : Yields (iterate step xs.length a) (xs.flatMap write) (xs.foldlM next a) := by
  induction xs generalizing a with
  | nil =>
    intro rest
    rfl
  | cons x xs ih =>
    obtain ⟨hx, hnext⟩ := hstep a x List.mem_cons_self hxs.1
    rw [List.flatMap_cons, List.foldlM_cons]
    apply hx.bind
    intro a' ha'
    apply ih (hxs.2 (hnext a' ha'))
    intro a y hmem
    exact hstep a y (List.mem_cons_of_mem _ hmem)

end Yields
end Reader
