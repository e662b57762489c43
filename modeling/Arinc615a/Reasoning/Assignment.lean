import Arinc615a.Reasoning.Accepted
import Arinc615a.Reasoning.WordCodec

/-!
# Decoding into an object that is already there

`Assigns` is what one expects of an assignment: the object is replaced, or an exception leaves it
as it was.  Whether a failed decoding gives the object back depends on the values in front of the
fault, since they are written at once; the rules for `Restores` follow a decoder step by step.
-/

namespace Reasoning

variable {χ σ α β γ : Type}

/-- A field that is read and then checked. -/
def Reader.checked (r : Reader χ α) (g : α → Except χ γ) : Reader χ γ := fun bs =>
  match r bs with
  | .error e => .error e
  | .ok (a, rest) =>
    match g a with
    | .ok c => .ok (c, rest)
    | .error e => .error (.exception e)

/-- The span starts with a field that the reader turns down. -/
def Reader.Rejects (r : Reader χ α) (bs : Bytes) : Prop := ∃ e, r bs = .error (.exception e)

/-- The span starts with a field of the value `a`, and `K` holds of the bytes behind it. -/
def Reader.Holds (r : Reader χ α) (a : α) (K : Bytes → Prop) (bs : Bytes) : Prop :=
  ∃ rest, r bs = .ok (a, rest) ∧ K rest

theorem WordCodec.read_not_rejects {width : Nat} (codec : WordCodec α width) (bs : Bytes) :
    ¬Reader.Rejects (codec.read : Reader χ α) bs := by
  rintro ⟨e, he⟩
  unfold WordCodec.read at he
  split_ifs at he
  cases he

namespace Decoder

/-- Decoding into `o` either gives what decoding into `fresh` gives, or throws an exception and
leaves `o` as it was. -/
def Assigns (d : Decoder χ σ α) (fresh o : σ) (bs : Bytes) : Prop :=
  (∃ o', (d o bs).object? = some o' ∧ (d fresh bs).object? = some o') ∨
    ∃ e, d o bs = .thrown (.exception e) o

/-! ## The same object from both -/

/-- Decoding into either object gives the same one, if it gives one at all. -/
def Forgets (d : Decoder χ σ α) (o₁ o₂ : σ) : Prop :=
  ∀ bs, (d o₁ bs).object? = (d o₂ bs).object?

theorem Forgets.refl (d : Decoder χ σ α) (o : σ) : Forgets d o o := fun _ => rfl

theorem Forgets.read_bind {r : Reader χ α} {k : α → Decoder χ σ β} {o₁ o₂ : σ}
    (hk : ∀ a, Forgets (k a) o₁ o₂) : Forgets (read r >>= k) o₁ o₂ := by
  intro bs
  rw [bind_run, bind_run]
  cases h : r bs with
  | ok p =>
    rw [read_ok h, read_ok h]
    exact hk p.1 p.2
  | error e =>
    rw [read_error h, read_error h]
    rfl

theorem Forgets.update_bind {f : σ → σ} {k : Unit → Decoder χ σ β} {o₁ o₂ : σ}
    (hk : Forgets (k ()) (f o₁) (f o₂)) : Forgets (update f >>= k) o₁ o₂ := hk

theorem Forgets.check_bind {x : Except χ α} {k : α → Decoder χ σ β} {o₁ o₂ : σ}
    (hk : ∀ a, Forgets (k a) o₁ o₂) : Forgets (check x >>= k) o₁ o₂ := by
  intro bs
  cases x with
  | ok a => exact hk a bs
  | error e => rfl

theorem Forgets.require_bind {p : Bytes → Bool} {e : χ} {k : Unit → Decoder χ σ β} {o₁ o₂ : σ}
    (hk : Forgets (k ()) o₁ o₂) : Forgets (require p e >>= k) o₁ o₂ := by
  intro bs
  rw [bind_run, bind_run]
  cases h : p bs with
  | true =>
    rw [require_pos h, require_pos h]
    exact hk bs
  | false =>
    rw [require_neg h, require_neg h]
    rfl

/-- The decoder does not touch the object, and the object does not matter to it. -/
def ReadsOnly (d : Decoder χ σ α) : Prop :=
  ∀ bs, (∃ a rest, ∀ o, d o bs = .done a o rest) ∨ ∃ e, ∀ o, d o bs = .thrown e o

theorem ReadsOnly.read (r : Reader χ α) : ReadsOnly (Decoder.read r : Decoder χ σ α) := by
  intro bs
  cases h : r bs with
  | ok p => exact .inl ⟨p.1, p.2, fun o => read_ok h o⟩
  | error e => exact .inr ⟨e, fun o => read_error h o⟩

theorem ReadsOnly.pure (a : α) : ReadsOnly (Pure.pure a : Decoder χ σ α) :=
  fun bs => .inl ⟨a, bs, fun _ => rfl⟩

theorem ReadsOnly.check (x : Except χ α) : ReadsOnly (Decoder.check x : Decoder χ σ α) := by
  intro bs
  cases x with
  | ok a => exact .inl ⟨a, bs, fun _ => rfl⟩
  | error e => exact .inr ⟨.exception e, fun _ => rfl⟩

theorem ReadsOnly.bind {d : Decoder χ σ α} {k : α → Decoder χ σ β} (hd : ReadsOnly d)
    (hk : ∀ a, ReadsOnly (k a)) : ReadsOnly (d >>= k) := by
  intro bs
  rcases hd bs with ⟨a, mid, hdone⟩ | ⟨e, hthrown⟩
  · rcases hk a mid with ⟨b, rest, hrest⟩ | ⟨e, hrest⟩
    · exact .inl ⟨b, rest, fun o => by rw [bind_run, hdone, Outcome.andThen_done, hrest]⟩
    · exact .inr ⟨e, fun o => by rw [bind_run, hdone, Outcome.andThen_done, hrest]⟩
  · exact .inr ⟨e, fun o => by rw [bind_run, hthrown, Outcome.andThen_thrown]⟩

theorem ReadsOnly.collect {body : Decoder χ σ α} (h : ReadsOnly body) (n : Nat) :
    ReadsOnly (Decoder.collect n body) := by
  induction n with
  | zero => exact ReadsOnly.pure []
  | succ n ih => exact h.bind fun a => ih.bind fun as => ReadsOnly.pure (a :: as)

theorem ReadsOnly.done_iff {d : Decoder χ σ α} (hd : ReadsOnly d) (o₁ o₂ : σ) (bs : Bytes) (a : α)
    (rest : Bytes) : d o₁ bs = .done a o₁ rest ↔ d o₂ bs = .done a o₂ rest := by
  rcases hd bs with ⟨b, mid, hdone⟩ | ⟨e, hthrown⟩
  · simp [hdone]
  · simp [hthrown]

theorem ReadsOnly.thrown_iff {d : Decoder χ σ α} (hd : ReadsOnly d) (o₁ o₂ : σ) (bs : Bytes)
    (e : Failure χ) : d o₁ bs = .thrown e o₁ ↔ d o₂ bs = .thrown e o₂ := by
  rcases hd bs with ⟨b, mid, hdone⟩ | ⟨e', hthrown⟩
  · simp [hdone]
  · simp [hthrown]

theorem Forgets.readsOnly_bind {d : Decoder χ σ α} {k : α → Decoder χ σ β} {o₁ o₂ : σ}
    (hd : ReadsOnly d) (hk : ∀ a, Forgets (k a) o₁ o₂) : Forgets (d >>= k) o₁ o₂ := by
  intro bs
  rw [bind_run, bind_run]
  rcases hd bs with ⟨a, mid, hdone⟩ | ⟨e, hthrown⟩
  · rw [hdone, hdone]
    exact hk a mid
  · rw [hthrown, hthrown]
    rfl

/-! ## The object back after an exception -/

/-- Started on `o`, the decoder throws an exception and leaves `o₀` behind, on the spans in `C`. -/
def Restores (d : Decoder χ σ α) (o₀ o : σ) (C : Bytes → Prop) : Prop :=
  ∀ bs, (∃ e, d o bs = .thrown (.exception e) o₀) ↔ C bs

theorem Restores.congr {d : Decoder χ σ α} {o₀ o : σ} {C C' : Bytes → Prop}
    (h : Restores d o₀ o C) (hC : ∀ bs, C bs ↔ C' bs) : Restores d o₀ o C' :=
  fun bs => (h bs).trans (hC bs)

/-- The last check: nothing behind it can fail. -/
theorem Restores.require_bind (p : Bytes → Bool) (e : χ) {k : Unit → Decoder χ σ α} {o₀ o : σ}
    (hk : ∀ bs, ∃ a o' rest, k () o bs = .done a o' rest) :
    Restores (Decoder.require p e >>= k) o₀ o fun bs => o = o₀ ∧ p bs = false := by
  intro bs
  dsimp only
  rw [bind_run]
  cases h : p bs with
  | true =>
    obtain ⟨a, o', rest, hdone⟩ := hk bs
    rw [require_pos h, Outcome.andThen_done, hdone]
    exact iff_of_false (fun ⟨_, h⟩ => nomatch h) fun hc => nomatch hc
  | false =>
    rw [require_neg h, Outcome.andThen_thrown]
    constructor
    · rintro ⟨e', he⟩
      cases he
      exact ⟨rfl, rfl⟩
    · rintro ⟨rfl, -⟩
      exact ⟨e, rfl⟩

theorem Restores.update_bind {f : σ → σ} {k : Unit → Decoder χ σ β} {o₀ o : σ}
    {C : Bytes → Prop} (hk : Restores (k ()) o₀ (f o) C) : Restores (update f >>= k) o₀ o C := hk

theorem Restores.readsOnly_bind {d : Decoder χ σ α} {k : α → Decoder χ σ β} {o₀ o : σ}
    {C : α → Bytes → Prop} (hd : ReadsOnly d) (hk : ∀ a, Restores (k a) o₀ o (C a)) :
    Restores (d >>= k) o₀ o fun bs =>
      (o = o₀ ∧ ∃ e, d o bs = .thrown (.exception e) o) ∨
        ∃ a rest, d o bs = .done a o rest ∧ C a rest := by
  intro bs
  dsimp only
  rw [bind_run]
  rcases hd bs with ⟨a, mid, hdone⟩ | ⟨e, hthrown⟩
  · rw [hdone, Outcome.andThen_done, hk a mid]
    constructor
    · exact fun hC => .inr ⟨a, mid, rfl, hC⟩
    · rintro (⟨-, e, he⟩ | ⟨_, _, heq, hC⟩)
      · cases he
      · cases heq
        exact hC
  · rw [hthrown, Outcome.andThen_thrown]
    constructor
    · rintro ⟨e', he⟩
      cases he
      exact .inl ⟨rfl, e', rfl⟩
    · rintro (⟨rfl, e', he⟩ | ⟨_, _, heq, -⟩)
      · cases he
        exact ⟨e', rfl⟩
      · cases heq

theorem Restores.read_bind {r : Reader χ α} {k : α → Decoder χ σ β} {o₀ o : σ}
    {C : α → Bytes → Prop} (hk : ∀ a, Restores (k a) o₀ o (C a)) :
    Restores (Decoder.read r >>= k) o₀ o fun bs =>
      (o = o₀ ∧ r.Rejects bs) ∨ ∃ a, r.Holds a (C a) bs := by
  refine (Restores.readsOnly_bind (ReadsOnly.read r) hk).congr fun bs => ?_
  unfold Reader.Rejects Reader.Holds
  cases h : r bs with
  | ok p => simp [read_ok h, Prod.ext_iff]
  | error e => simp [read_error h]

/-- A word that is read without a check cannot be turned down. -/
theorem Restores.word_bind {width : Nat} {codec : WordCodec α width} {k : α → Decoder χ σ β}
    {o₀ o : σ} {C : α → Bytes → Prop} (hk : ∀ a, Restores (k a) o₀ o (C a)) :
    Restores (Decoder.read codec.read >>= k) o₀ o fun bs =>
      ∃ a, Reader.Holds (codec.read : Reader χ α) a (C a) bs :=
  (Restores.read_bind hk).congr fun bs =>
    or_iff_right fun hc => codec.read_not_rejects bs hc.2

theorem read_check_bind (r : Reader χ α) (g : α → Except χ γ) (k : γ → Decoder χ σ β) :
    (Decoder.read r >>= fun a => Decoder.check (g a) >>= k) = Decoder.read (r.checked g) >>= k := by
  funext o bs
  rw [bind_run, bind_run]
  unfold Decoder.read Reader.checked
  cases r bs with
  | error e => rfl
  | ok p => cases hg : g p.1 with
    | error e => simp [hg]
    | ok c => simp [hg]

/-! Fields one after the other.  `p` says that the fields so far have the values of `o₀`, and `q`
what else is needed for the object to be `o₀` again at this point. -/

section Fields

variable {o₀ o : σ} {p q : Prop}

theorem Restores.readsOnly_field {d : Decoder χ σ α} {k : α → Decoder χ σ β} {a₀ : α}
    {K : Bytes → Prop} (hd : ReadsOnly d) (ho : o = o₀ ↔ p ∧ q)
    (hk : ∀ a, Restores (k a) o₀ o fun bs => (p ∧ a = a₀) ∧ K bs) :
    Restores (d >>= k) o₀ o fun bs =>
      p ∧ ((q ∧ ∃ e, d o₀ bs = .thrown (.exception e) o₀) ∨
        ∃ rest, d o₀ bs = .done a₀ o₀ rest ∧ K rest) := by
  refine (Restores.readsOnly_bind hd hk).congr fun bs => ?_
  simp only [ho, hd.thrown_iff o o₀, hd.done_iff o o₀]
  constructor
  · rintro (⟨⟨hp, hq⟩, he⟩ | ⟨a, rest, hdone, ⟨hp, rfl⟩, hK⟩)
    · exact ⟨hp, .inl ⟨hq, he⟩⟩
    · exact ⟨hp, .inr ⟨rest, hdone, hK⟩⟩
  · rintro ⟨hp, ⟨hq, he⟩ | ⟨rest, hdone, hK⟩⟩
    · exact .inl ⟨⟨hp, hq⟩, he⟩
    · exact .inr ⟨a₀, rest, hdone, ⟨hp, rfl⟩, hK⟩

theorem Restores.field {r : Reader χ α} {k : α → Decoder χ σ β} {a₀ : α} {K : Bytes → Prop}
    (ho : o = o₀ ↔ p ∧ q) (hk : ∀ a, Restores (k a) o₀ o fun bs => (p ∧ a = a₀) ∧ K bs) :
    Restores (Decoder.read r >>= k) o₀ o fun bs =>
      p ∧ ((q ∧ r.Rejects bs) ∨ r.Holds a₀ K bs) := by
  refine (Restores.readsOnly_field (ReadsOnly.read r) ho hk).congr fun bs => ?_
  unfold Reader.Rejects Reader.Holds
  cases h : r bs with
  | ok p => simp [read_ok h, Prod.ext_iff]
  | error e => simp [read_error h]

/-- A word is never turned down, so the object need not be `o₀` in front of it. -/
theorem Restores.word {width : Nat} {codec : WordCodec α width} {k : α → Decoder χ σ β} {a₀ : α}
    {K : Bytes → Prop} (hk : ∀ a, Restores (k a) o₀ o fun bs => (p ∧ a = a₀) ∧ K bs) :
    Restores (Decoder.read codec.read >>= k) o₀ o fun bs =>
      p ∧ Reader.Holds (codec.read : Reader χ α) a₀ K bs := by
  refine (Restores.word_bind hk).congr fun bs => ?_
  constructor
  · rintro ⟨a, rest, hread, ⟨hp, rfl⟩, hK⟩
    exact ⟨hp, rest, hread, hK⟩
  · rintro ⟨hp, rest, hread, hK⟩
    exact ⟨a₀, rest, hread, ⟨hp, rfl⟩, hK⟩

theorem Restores.checked {r : Reader χ α} {g : α → Except χ γ} {k : γ → Decoder χ σ β} {c₀ : γ}
    {K : Bytes → Prop} (ho : o = o₀ ↔ p)
    (hk : ∀ c, Restores (k c) o₀ o fun bs => (p ∧ c = c₀) ∧ K bs) :
    Restores (Decoder.read r >>= fun a => Decoder.check (g a) >>= k) o₀ o fun bs =>
      p ∧ ((r.checked g).Rejects bs ∨ (r.checked g).Holds c₀ K bs) := by
  rw [read_check_bind]
  exact (Restores.field (ho.trans (and_iff_left trivial).symm) hk).congr fun bs =>
    and_congr_right fun _ => or_congr_left (and_iff_right trivial)

/-- A number of entries is not written to the object. -/
theorem Restores.count {width : Nat} {codec : WordCodec α width} {k : α → Decoder χ σ β}
    {K : α → Bytes → Prop} (hk : ∀ a, Restores (k a) o₀ o fun bs => p ∧ K a bs) :
    Restores (Decoder.read codec.read >>= k) o₀ o fun bs =>
      p ∧ ∃ a, Reader.Holds (codec.read : Reader χ α) a (K a) bs := by
  refine (Restores.word_bind hk).congr fun bs => ?_
  constructor
  · rintro ⟨a, rest, hread, hp, hK⟩
    exact ⟨hp, a, rest, hread, hK⟩
  · rintro ⟨hp, a, rest, hread, hK⟩
    exact ⟨a, rest, hread, hp, hK⟩

end Fields

/-! ## Loops that add to a list of the object -/

section Appends

variable {mk : γ → List β → σ} {body : Decoder χ σ Unit}

/-- The body reads an entry and adds it to the list; the object does not matter to it.  `mk` puts
an object together from its list and all the rest. -/
def Appends (mk : γ → List β → σ) (body : Decoder χ σ Unit) : Prop :=
  ∀ bs, (∃ b rest, ∀ g bs', body (mk g bs') bs = .done () (mk g (bs' ++ [b])) rest) ∨
    ∃ e, ∀ g bs', body (mk g bs') bs = .thrown e (mk g bs')

theorem ReadsOnly.appends {d : Decoder χ σ β} (hd : ReadsOnly d) {push : β → σ → σ}
    (hpush : ∀ b g bs', push b (mk g bs') = mk g (bs' ++ [b])) :
    Appends mk (d >>= fun b => update (push b)) := by
  intro bs
  rcases hd bs with ⟨b, rest, hdone⟩ | ⟨e, hthrown⟩
  · exact .inl ⟨b, rest, fun g bs' => by
      rw [bind_run, hdone, Outcome.andThen_done, update_run, hpush]⟩
  · exact .inr ⟨e, fun g bs' => by rw [bind_run, hthrown, Outcome.andThen_thrown]⟩

/-- A loop adds all of its entries, or it fails behind some of them.  It adds none only when the
first one fails. -/
theorem Appends.times (h : Appends mk body) (n : Nat) (bs : Bytes) :
    (∃ added rest, added.length = n ∧
      ∀ g bs', Decoder.times n body (mk g bs') bs = .done () (mk g (bs' ++ added)) rest) ∨
    ∃ added e, n ≠ 0 ∧
      (∀ g bs', Decoder.times n body (mk g bs') bs = .thrown e (mk g (bs' ++ added))) ∧
      (∀ g bs', added = [] ↔ body (mk g bs') bs = .thrown e (mk g bs')) := by
  induction n generalizing bs with
  | zero => exact .inl ⟨[], bs, rfl, fun g bs' => by rw [List.append_nil]; rfl⟩
  | succ n ih =>
    rcases h bs with ⟨b, mid, hdone⟩ | ⟨e, hthrown⟩
    · rcases ih mid with ⟨added, rest, hlen, hloop⟩ | ⟨added, e, -, hloop, -⟩
      · refine .inl ⟨b :: added, rest, by rw [List.length_cons, hlen], fun g bs' => ?_⟩
        rw [times_succ, bind_run, hdone, Outcome.andThen_done, hloop, List.append_assoc,
          List.singleton_append]
      · refine .inr ⟨b :: added, e, Nat.succ_ne_zero n, fun g bs' => ?_, fun g bs' => ?_⟩
        · rw [times_succ, bind_run, hdone, Outcome.andThen_done, hloop, List.append_assoc,
            List.singleton_append]
        · rw [hdone]
          exact iff_of_false (List.cons_ne_nil b added) fun hfirst => nomatch hfirst
    · refine .inr ⟨[], e, Nat.succ_ne_zero n, fun g bs' => ?_, fun g bs' =>
        iff_of_true rfl (hthrown g bs')⟩
      rw [times_succ, bind_run, hthrown, Outcome.andThen_thrown, List.append_nil]

/-- A loop gives the object back when its first entry is at fault, or when there are no entries
and what follows is at fault. -/
theorem Restores.times_bind (h : Appends mk body)
    (hinj : ∀ g bs g' bs', mk g bs = mk g' bs' ↔ g = g' ∧ bs = bs') {k : Unit → Decoder χ σ α}
    {n : Nat} {g g₀ : γ} {bs₀ : List β} {K : Bytes → Prop}
    (hk : ∀ added, Restores (k ()) (mk g₀ bs₀) (mk g (bs₀ ++ added)) fun bs =>
      (g = g₀ ∧ added = []) ∧ K bs) :
    Restores (Decoder.times n body >>= k) (mk g₀ bs₀) (mk g bs₀) fun bs =>
      g = g₀ ∧ ((n = 0 ∧ K bs) ∨
        (n ≠ 0 ∧ ∃ e, body (mk g₀ bs₀) bs = .thrown (.exception e) (mk g₀ bs₀))) := by
  intro bs
  dsimp only
  rw [bind_run]
  rcases h.times n bs with ⟨added, rest, hlen, hloop⟩ | ⟨added, e, hn, hloop, hfirst⟩
  · rw [hloop, Outcome.andThen_done, hk added rest]
    constructor
    · rintro ⟨⟨rfl, rfl⟩, hK⟩
      have hn : n = 0 := hlen.symm
      subst hn
      have hdone := hloop g bs₀
      rw [times_zero, pure_run] at hdone
      injection hdone with _ _ hrest
      exact ⟨rfl, .inl ⟨rfl, hrest.symm ▸ hK⟩⟩
    · rintro ⟨rfl, ⟨rfl, hK⟩ | ⟨hn, e, he⟩⟩
      · have hadded := List.length_eq_zero_iff.mp hlen
        subst hadded
        have hdone := hloop g bs₀
        rw [times_zero, pure_run] at hdone
        injection hdone with _ _ hrest
        exact ⟨⟨rfl, rfl⟩, hrest ▸ hK⟩
      · obtain ⟨m, rfl⟩ := Nat.exists_eq_succ_of_ne_zero hn
        have hdone := hloop g bs₀
        rw [times_succ, bind_run, he] at hdone
        cases hdone
  · rw [hloop, Outcome.andThen_thrown]
    constructor
    · rintro ⟨e', he⟩
      injection he with he ho
      obtain ⟨rfl, hadded⟩ := (hinj ..).mp ho
      rw [(hfirst g bs₀).mp (List.append_right_eq_self.mp hadded), he]
      exact ⟨rfl, .inr ⟨hn, e', rfl⟩⟩
    · rintro ⟨rfl, ⟨hzero, -⟩ | ⟨-, e', he⟩⟩
      · exact absurd hzero hn
      · obtain ⟨m, rfl⟩ := Nat.exists_eq_succ_of_ne_zero hn
        have hthrown := hloop g bs₀
        rw [times_succ, bind_run, he, Outcome.andThen_thrown] at hthrown
        injection hthrown with he ho
        exact ⟨e', by rw [← he, ← ho]⟩

/-- What a decoding gives when it is started on one of the objects `start i bs'`: its entries behind
`bs'`, and all the rest from the span. -/
def Extends {ι : Type} (mk : γ → List β → σ) (start : ι → List β → σ) (d : Decoder χ σ α) :
    Prop :=
  ∀ bs, (∀ i bs', (d (start i bs') bs).object? = none) ∨
    ∃ g added, ∀ i bs', (d (start i bs') bs).object? = some (mk g (bs' ++ added))

section

variable {ι : Type} {start : ι → List β → σ}

theorem Extends.read_bind {δ : Type} {r : Reader χ δ} {k : δ → Decoder χ σ α}
    (hk : ∀ a, Extends mk start (k a)) : Extends mk start (Decoder.read r >>= k) := by
  intro bs
  cases h : r bs with
  | ok p =>
    have hrun : ∀ o, (Decoder.read r >>= k) o bs = k p.1 o p.2 := fun o => by
      rw [bind_run, read_ok h, Outcome.andThen_done]
    simp only [hrun]
    exact hk p.1 p.2
  | error e =>
    refine .inl fun i bs' => ?_
    rw [bind_run, read_error h]
    rfl

theorem Extends.require_bind {p : Bytes → Bool} {e : χ} {k : Unit → Decoder χ σ α}
    (hk : Extends mk start (k ())) : Extends mk start (Decoder.require p e >>= k) := by
  intro bs
  cases h : p bs with
  | true =>
    have hrun : ∀ o, (Decoder.require p e >>= k) o bs = k () o bs := fun o => by
      rw [bind_run, require_pos h, Outcome.andThen_done]
    simp only [hrun]
    exact hk bs
  | false =>
    refine .inl fun i bs' => ?_
    rw [bind_run, require_neg h]
    rfl

theorem Extends.update_bind {f : σ → σ} {k : Unit → Decoder χ σ α}
    (hk : Extends mk (fun i bs' => f (start i bs')) (k ())) :
    Extends mk start (update f >>= k) := hk

theorem Extends.unread_bind {k : Bytes → Decoder χ σ α} (hk : ∀ bs, Extends mk start (k bs)) :
    Extends mk start (unread >>= k) := fun bs => hk bs []

theorem Extends.times_bind {k : Unit → Decoder χ σ α} (h : Appends start body)
    (hk : Extends mk start (k ())) (n : Nat) : Extends mk start (Decoder.times n body >>= k) := by
  intro bs
  rcases h.times n bs with ⟨added, rest, -, hloop⟩ | ⟨added, e, -, hloop, -⟩
  · have hrun : ∀ i bs', (Decoder.times n body >>= k) (start i bs') bs =
        k () (start i (bs' ++ added)) rest := fun i bs' => by
      rw [bind_run, hloop, Outcome.andThen_done]
    simp only [hrun]
    rcases hk rest with hnone | ⟨g, more, hsome⟩
    · exact .inl fun i bs' => hnone i _
    · exact .inr ⟨g, added ++ more, fun i bs' => by rw [hsome, List.append_assoc]⟩
  · refine .inl fun i bs' => ?_
    rw [bind_run, hloop]
    rfl

/-- All objects have become the same but for the list. -/
theorem Extends.pure (g : γ) (a : α) :
    Extends mk (fun (_ : ι) bs' => mk g bs') (Pure.pure a : Decoder χ σ α) :=
  fun _ => .inr ⟨g, [], fun _ bs' => by rw [List.append_nil]; rfl⟩

end

theorem Assigns.iff_of_extends {d : Decoder χ σ α} (h : Extends mk mk d)
    (hinj : ∀ g bs g' bs', mk g bs = mk g' bs' ↔ g = g' ∧ bs = bs') {g₀ g₁ : γ} {bs₀ : List β}
    {K : Bytes → Prop} (hK : Restores d (mk g₀ bs₀) (mk g₀ bs₀) K) (bs : Bytes) :
    Assigns d (mk g₁ []) (mk g₀ bs₀) bs ↔
      K bs ∨ ((∃ o, (d (mk g₀ bs₀) bs).object? = some o) ∧ bs₀ = []) := by
  unfold Assigns
  rw [hK bs, or_comm]
  apply or_congr_right
  rcases h bs with hnone | ⟨g', added, hsome⟩
  · simp [hnone]
  · simp [hsome, hinj, eq_comm]

end Appends

theorem Assigns.iff_of_forgets {d : Decoder χ σ α} {fresh o : σ} (h : Forgets d o fresh)
    {K : Bytes → Prop} (hK : Restores d o o K) (bs : Bytes) :
    Assigns d fresh o bs ↔ K bs ∨ ∃ o', (d o bs).object? = some o' := by
  unfold Assigns
  rw [hK bs, or_comm, ← h bs]
  simp only [and_self]

end Decoder

end Reasoning
