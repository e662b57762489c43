import Mathlib.Algebra.GroupWithZero.Nat
import Mathlib.Data.List.Basic

/-!
# Decoders that write to an object while they read

A `Reader` takes one field off the front of a byte span.  A `Decoder` reads fields one after the
other and writes to a live object as it goes, so a failure leaves the object as the fields before
it left it.  A read past the end of the span is kept apart from the exceptions a decoder throws.
-/

namespace Reasoning

abbrev Bytes := List UInt8

/-- Why reading stops: an exception thrown on purpose, or an access past the end of the span. -/
inductive Failure (χ : Type) where
  | exception (e : χ)
  | overrun
  deriving DecidableEq, Repr

/-- A field reader returns the value and the unread bytes. -/
abbrev Reader (χ α : Type) := Bytes → Except (Failure χ) (α × Bytes)

/-- How decoding leaves off.  The object is there in both cases. -/
inductive Outcome (χ σ α : Type) where
  | done (value : α) (object : σ) (unread : Bytes)
  | thrown (failure : Failure χ) (object : σ)
  deriving DecidableEq, Repr

def Decoder (χ σ α : Type) := σ → Bytes → Outcome χ σ α

variable {χ σ α β : Type}

namespace Outcome

def andThen (out : Outcome χ σ α) (f : α → Decoder χ σ β) : Outcome χ σ β :=
  match out with
  | .done a o bs => f a o bs
  | .thrown e o => .thrown e o

@[simp] theorem andThen_done (a : α) (o : σ) (bs : Bytes) (f : α → Decoder χ σ β) :
    (Outcome.done a o bs : Outcome χ σ α).andThen f = f a o bs := rfl

@[simp] theorem andThen_thrown (e : Failure χ) (o : σ) (f : α → Decoder χ σ β) :
    (Outcome.thrown e o : Outcome χ σ α).andThen f = .thrown e o := rfl

/-- Decoding ran past the end of its span. -/
def Overran : Outcome χ σ α → Prop
  | .thrown .overrun _ => True
  | _ => False

@[simp] theorem overran_done (a : α) (o : σ) (bs : Bytes) :
    ¬(Outcome.done a o bs : Outcome χ σ α).Overran := id

@[simp] theorem overran_exception (e : χ) (o : σ) :
    ¬(Outcome.thrown (.exception e) o : Outcome χ σ α).Overran := id

@[simp] theorem overran_overrun (o : σ) :
    (Outcome.thrown .overrun o : Outcome χ σ α).Overran := trivial

instance (out : Outcome χ σ α) : Decidable out.Overran :=
  match out with
  | .done _ _ _ => isFalse id
  | .thrown (.exception _) _ => isFalse id
  | .thrown .overrun _ => isTrue trivial

/-- The object written by a decoding that ends well. -/
def object? : Outcome χ σ α → Option σ
  | .done _ o _ => some o
  | .thrown _ _ => none

@[simp] theorem object?_done (a : α) (o : σ) (bs : Bytes) :
    (Outcome.done a o bs : Outcome χ σ α).object? = some o := rfl

@[simp] theorem object?_thrown (e : Failure χ) (o : σ) :
    (Outcome.thrown e o : Outcome χ σ α).object? = none := rfl

end Outcome

namespace Decoder

instance : Monad (Decoder χ σ) where
  pure a := fun o bs => .done a o bs
  bind x f := fun o bs => (x o bs).andThen f

@[simp] theorem pure_run (a : α) (o : σ) (bs : Bytes) :
    (pure a : Decoder χ σ α) o bs = .done a o bs := rfl

@[simp] theorem bind_run (x : Decoder χ σ α) (f : α → Decoder χ σ β) (o : σ) (bs : Bytes) :
    (x >>= f) o bs = (x o bs).andThen f := rfl

theorem id_map_run (x : Decoder χ σ α) : id <$> x = x := by
  funext o bs
  show (x o bs).andThen _ = x o bs
  cases x o bs <;> rfl

theorem bind_assoc_run {γ : Type} (x : Decoder χ σ α) (f : α → Decoder χ σ β)
    (g : β → Decoder χ σ γ) : x >>= f >>= g = x >>= fun a => f a >>= g := by
  funext o bs
  show ((x o bs).andThen f).andThen g = (x o bs).andThen _
  cases x o bs <;> rfl

instance : LawfulMonad (Decoder χ σ) :=
  LawfulMonad.mk' _ id_map_run (fun _ _ => rfl) bind_assoc_run

/-- Reads one field and leaves the object alone. -/
def read (r : Reader χ α) : Decoder χ σ α := fun o bs =>
  match r bs with
  | .ok (a, rest) => .done a o rest
  | .error e => .thrown e o

def update (f : σ → σ) : Decoder χ σ Unit := fun o bs => .done () (f o) bs

/-- Throws unless the unread bytes satisfy `p`. -/
def require (p : Bytes → Bool) (e : χ) : Decoder χ σ Unit := fun o bs =>
  if p bs then .done () o bs else .thrown (.exception e) o

/-- Takes all bytes that are left. -/
def unread : Decoder χ σ Bytes := fun o bs => .done bs o []

/-- A check of a value already read. -/
def check (x : Except χ α) : Decoder χ σ α := fun o bs =>
  match x with
  | .ok a => .done a o bs
  | .error e => .thrown (.exception e) o

/-- A counted loop whose body writes to the object. -/
def times : Nat → Decoder χ σ Unit → Decoder χ σ Unit
  | 0, _ => pure ()
  | n + 1, body => body >>= fun _ => times n body

/-- A counted loop that collects the values of its body. -/
def collect : Nat → Decoder χ σ α → Decoder χ σ (List α)
  | 0, _ => pure []
  | n + 1, body => body >>= fun a => collect n body >>= fun as => pure (a :: as)

@[simp] theorem update_run (f : σ → σ) (o : σ) (bs : Bytes) :
    (update f : Decoder χ σ Unit) o bs = .done () (f o) bs := rfl

@[simp] theorem unread_run (o : σ) (bs : Bytes) :
    (unread : Decoder χ σ Bytes) o bs = .done bs o [] := rfl

@[simp] theorem check_ok (a : α) (o : σ) (bs : Bytes) :
    (check (.ok a) : Decoder χ σ α) o bs = .done a o bs := rfl

@[simp] theorem check_error (e : χ) (o : σ) (bs : Bytes) :
    (check (.error e) : Decoder χ σ α) o bs = .thrown (.exception e) o := rfl

theorem require_pos {p : Bytes → Bool} {bs : Bytes} (h : p bs = true) (e : χ) (o : σ) :
    (require p e : Decoder χ σ Unit) o bs = .done () o bs := by
  unfold require
  rw [if_pos h]

theorem require_neg {p : Bytes → Bool} {bs : Bytes} (h : p bs = false) (e : χ) (o : σ) :
    (require p e : Decoder χ σ Unit) o bs = .thrown (.exception e) o := by
  unfold require
  rw [if_neg (by rw [h]; decide)]

theorem read_ok {r : Reader χ α} {bs rest : Bytes} {a : α} (h : r bs = .ok (a, rest)) (o : σ) :
    (read r : Decoder χ σ α) o bs = .done a o rest := by
  unfold read
  rw [h]

theorem read_error {r : Reader χ α} {bs : Bytes} {e : Failure χ} (h : r bs = .error e) (o : σ) :
    (read r : Decoder χ σ α) o bs = .thrown e o := by
  unfold read
  rw [h]

@[simp] theorem times_zero (body : Decoder χ σ Unit) : times 0 body = pure () := rfl

@[simp] theorem times_succ (n : Nat) (body : Decoder χ σ Unit) :
    times (n + 1) body = body >>= fun _ => times n body := rfl

/-! ## Loops over written entries -/

/-- A loop reads back a list whose entries its body reads back one by one. -/
theorem times_written {body : Decoder χ σ Unit} {write : β → Bytes} {push : σ → β → σ}
    {entries : List β}
    (h : ∀ b ∈ entries, ∀ o rest, body o (write b ++ rest) = .done () (push o b) rest)
    (o : σ) (rest : Bytes) :
    times entries.length body o ((entries.map write).flatten ++ rest) =
      .done () (entries.foldl push o) rest := by
  induction entries generalizing o with
  | nil => rfl
  | cons b entries ih =>
    rw [List.map_cons, List.flatten_cons, List.append_assoc, List.length_cons, times_succ,
      bind_run, h b (List.mem_cons_self ..), Outcome.andThen_done,
      ih (fun b hb => h b (List.mem_cons_of_mem _ hb)), List.foldl_cons]

/-- The same loop where the entries end up in a list of the object. -/
theorem times_appended {body : Decoder χ σ Unit} {write : β → Bytes} {entries : List β}
    (list : σ → List β) (put : List β → σ → σ) (list_put : ∀ bs o, list (put bs o) = bs)
    (put_put : ∀ bs cs o, put bs (put cs o) = put bs o) (put_list : ∀ o, put (list o) o = o)
    (h : ∀ b ∈ entries, ∀ o rest,
      body o (write b ++ rest) = .done () (put (list o ++ [b]) o) rest)
    (o : σ) (rest : Bytes) :
    times entries.length body o ((entries.map write).flatten ++ rest) =
      .done () (put (list o ++ entries) o) rest := by
  -- the loop appends the entries one by one; the rest is about the fold
  rw [times_written h]
  -- the entries are read in order, so only the object is compared
  congr 1
  clear h
  induction entries generalizing o with
  | nil => rw [List.foldl_nil, List.append_nil, put_list]
  | cons b entries ih =>
    rw [List.foldl_cons, ih, list_put, put_put, List.append_assoc, List.singleton_append]

theorem collect_written {body : Decoder χ σ β} {write : β → Bytes} {entries : List β}
    (h : ∀ b ∈ entries, ∀ o rest, body o (write b ++ rest) = .done b o rest)
    (o : σ) (rest : Bytes) :
    collect entries.length body o ((entries.map write).flatten ++ rest) =
      .done entries o rest := by
  induction entries with
  | nil => rfl
  | cons b entries ih =>
    rw [List.map_cons, List.flatten_cons, List.append_assoc, List.length_cons, collect,
      bind_run, h b (List.mem_cons_self ..), Outcome.andThen_done, bind_run,
      ih (fun b hb => h b (List.mem_cons_of_mem _ hb)), Outcome.andThen_done, pure_run]

end Decoder

/-! ## Writers that append entry by entry -/

/-- The loop of an encoder: the encoding of each entry is appended to the bytes so far. -/
def appendEach (write : β → Except χ Bytes) (bytes : Bytes) (entries : List β) :
    Except χ Bytes :=
  entries.foldlM (fun bytes b => do
    let w ← write b
    pure (bytes ++ w)) bytes

theorem appendEach_ok {write : β → Except χ Bytes} {written : β → Bytes} {entries : List β}
    (h : ∀ b ∈ entries, write b = .ok (written b)) (bytes : Bytes) :
    appendEach write bytes entries = .ok (bytes ++ (entries.map written).flatten) := by
  unfold appendEach
  induction entries generalizing bytes with
  | nil => simp [pure, Except.pure]
  | cons b entries ih =>
    rw [List.foldlM_cons, h b (List.mem_cons_self ..)]
    -- the bytes so far grow by the entry, so the hypothesis is used at the longer prefix
    simp only [bind, Except.bind, pure, Except.pure] at ih ⊢
    rw [ih (fun b hb => h b (List.mem_cons_of_mem _ hb)), List.map_cons, List.flatten_cons,
      List.append_assoc]

theorem length_flatten_map {write : β → Bytes} {size : β → Nat}
    (h : ∀ b, (write b).length = size b) (entries : List β) :
    (entries.map write).flatten.length = (entries.map size).sum := by
  -- the sizes are summed up as they are, no entry is looked into
  have hsize : List.length ∘ write = size := funext h
  rw [List.length_flatten, List.map_map, hsize]

theorem length_flatten_le {write : β → Bytes} {entries : List β} {count size : Nat}
    (hcount : entries.length ≤ count) (hsize : ∀ b ∈ entries, (write b).length ≤ size) :
    (entries.map write).flatten.length ≤ count * size := by
  have hsum : (entries.map write).flatten.length ≤ entries.length * size := by
    -- induction on the entries alone; the count is a bound for the number of them
    clear hcount
    induction entries with
    | nil => simp
    | cons b entries ih =>
      have hb := hsize b (List.mem_cons_self ..)
      have hrest := ih fun c hc => hsize c (List.mem_cons_of_mem _ hc)
      rw [List.map_cons, List.flatten_cons, List.length_append, List.length_cons, Nat.succ_mul]
      omega
  exact Nat.le_trans hsum (Nat.mul_le_mul_right size hcount)

/-- A sequence of checked steps ends well only if each step does. -/
theorem bind_eq_ok {α β : Type} {x : Except χ α} {f : α → Except χ β} {b : β}
    (h : x >>= f = .ok b) : ∃ a, x = .ok a ∧ f a = .ok b := by
  cases x with
  | error e => cases h
  | ok a => exact ⟨a, rfl, h⟩

theorem error_of_not_ok {α : Type} {x : Except χ α} (h : ¬∃ a, x = .ok a) :
    ∃ e, x = .error e := by
  cases x with
  | error e => exact ⟨e, rfl⟩
  | ok a => exact absurd ⟨a, rfl⟩ h

/-- The loop ends well exactly when every entry can be written. -/
theorem appendEach_ok_iff {write : β → Except χ Bytes} {entries : List β} (bytes : Bytes) :
    (∃ out, appendEach write bytes entries = .ok out) ↔
      ∀ b ∈ entries, ∃ w, write b = .ok w := by
  unfold appendEach
  induction entries generalizing bytes with
  | nil => simp [pure, Except.pure]
  | cons b entries ih =>
    rw [List.foldlM_cons, List.forall_mem_cons]
    cases hb : write b with
    | ok w =>
      rw [← ih (bytes ++ w)]
      simp [bind, Except.bind, pure, Except.pure]
    | error e => simp [bind, Except.bind]

end Reasoning
