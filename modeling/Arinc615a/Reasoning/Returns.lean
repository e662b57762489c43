import Arinc615a.Reasoning.Accepted
import Arinc615a.Reasoning.WordCodec

/-!
# What a decoder makes of written bytes

`Returns rest d w ok o a o'` is all that can be said of a decoder on the bytes `w` with `rest`
behind them: it ends well exactly under `ok`, and then gives `a`, leaves `rest` and has made `o'`
of the object `o`.  The rules follow the text of a decoder, and its conditions add up on the way.
-/

namespace Reasoning.Decoder

variable {χ σ α β : Type}

def Returns (rest : Bytes) (d : Decoder χ σ α) (w : Bytes) (ok : Prop) (o : σ) (a : α) (o' : σ) :
    Prop :=
  ∀ a' o'' rest', d o (w ++ rest) = .done a' o'' rest' ↔ ok ∧ a' = a ∧ o'' = o' ∧ rest' = rest

theorem bind_done_iff {x : Decoder χ σ α} {f : α → Decoder χ σ β} {o o'' : σ} {bs rest : Bytes}
    {b : β} : (x >>= f) o bs = .done b o'' rest ↔
      ∃ a o' mid, x o bs = .done a o' mid ∧ f a o' mid = .done b o'' rest := by
  refine ⟨bind_done, ?_⟩
  rintro ⟨a, o', mid, hx, hf⟩
  rw [bind_run, hx]
  exact hf

namespace Returns

variable {rest w w' : Bytes} {d : Decoder χ σ α} {k : α → Decoder χ σ β} {ok ok' : Prop} {a : α}
  {b : β} {o o' o₁ : σ}

theorem bind (h : Returns (w' ++ rest) d w ok o a o₁) (h' : Returns rest (k a) w' ok' o₁ b o') :
    Returns rest (d >>= k) (w ++ w') (ok ∧ ok') o b o' := by
  intro b' o'' rest'
  rw [List.append_assoc, bind_done_iff]
  constructor
  · rintro ⟨a', o₂, mid, hd, hk⟩
    obtain ⟨hok, rfl, rfl, rfl⟩ := (h ..).mp hd
    obtain ⟨hok', hb, ho, hrest⟩ := (h' ..).mp hk
    exact ⟨⟨hok, hok'⟩, hb, ho, hrest⟩
  · rintro ⟨⟨hok, hok'⟩, hb, ho, hrest⟩
    exact ⟨a, o₁, w' ++ rest, (h ..).mpr ⟨hok, rfl, rfl, rfl⟩, (h' ..).mpr ⟨hok', hb, ho, hrest⟩⟩

/-- The condition may be written in another way. -/
theorem of_iff (h : Returns rest d w ok o a o') (hok : ok ↔ ok') : Returns rest d w ok' o a o' :=
  fun a' o'' rest' => (h a' o'' rest').trans (and_congr_left' hok)

/-- A decoder that is known to end well. -/
theorem of_done (h : d o (w ++ rest) = .done a o' rest) : Returns rest d w True o a o' := by
  intro a' o'' rest'
  rw [h]
  constructor
  · intro heq
    cases heq
    exact ⟨trivial, rfl, rfl, rfl⟩
  · rintro ⟨-, rfl, rfl, rfl⟩
    rfl

/-- A first step that is known to end well adds no condition. -/
theorem of_done_bind (h : d o (w ++ (w' ++ rest)) = .done a o₁ (w' ++ rest))
    (h' : Returns rest (k a) w' ok o₁ b o') : Returns rest (d >>= k) (w ++ w') ok o b o' :=
  (bind (of_done h) h').of_iff (iff_of_eq (true_and _))

theorem pure (a : α) : Returns rest (Pure.pure a : Decoder χ σ α) [] True o a o := of_done rfl

theorem read_bind {r : Reader χ α} (h : r (w ++ (w' ++ rest)) = .ok (a, w' ++ rest))
    (h' : Returns rest (k a) w' ok o b o') :
    Returns rest (read r >>= k) (w ++ w') ok o b o' :=
  of_done_bind (read_ok h o) h'

theorem word_bind {width : Nat} (codec : WordCodec α width) (a : α)
    (h' : Returns rest (k a) w' ok o b o') :
    Returns rest (read codec.read >>= k) (codec.encode a ++ w') ok o b o' :=
  read_bind (codec.read_encode a _) h'

theorem update (f : σ → σ) : Returns rest (update f : Decoder χ σ Unit) [] True o () (f o) :=
  of_done rfl

theorem update_bind {f : σ → σ} {k : Unit → Decoder χ σ β}
    (h : Returns rest (k ()) w ok (f o) b o') :
    Returns rest (Decoder.update f >>= k) w ok o b o' :=
  of_done_bind (w := []) (update_run f o _) h

theorem check_bind {x : Except χ α} (hx : ∀ a', x = .ok a' ↔ ok ∧ a' = a)
    (h : Returns rest (k a) w ok' o b o') :
    Returns rest (check x >>= k) w (ok ∧ ok') o b o' := by
  refine bind (w := []) (fun a' o'' rest' => ?_) h
  rw [List.nil_append]
  cases hcheck : x with
  | error e =>
    have hfails : ¬ok := fun hok => by
      have heq := (hx a).mpr ⟨hok, rfl⟩
      rw [hcheck] at heq
      cases heq
    exact iff_of_false (by intro heq; cases heq) fun heq => hfails heq.1
  | ok a₁ =>
    obtain ⟨hok, rfl⟩ := (hx a₁).mp hcheck
    rw [check_ok]
    exact ((of_done rfl : Returns _ (Pure.pure a₁) [] _ o a₁ o) a' o'' rest').trans
      (and_congr_left' (iff_of_true trivial hok))

theorem require {p : Bytes → Bool} {e : χ} (hp : p rest = true) :
    Returns rest (require p e) [] True o () o :=
  of_done (require_pos hp e o)

theorem require_bind {p : Bytes → Bool} {e : χ} {k : Unit → Decoder χ σ β}
    (hp : p (w ++ rest) = true) (h : Returns rest (k ()) w ok o b o') :
    Returns rest (Decoder.require p e >>= k) w ok o b o' :=
  of_done_bind (w := []) (require_pos hp e o) h

/-- All that is left is taken. -/
theorem unread_bind {k : Bytes → Decoder χ σ β} (h : Returns [] (k w) [] ok o b o') :
    Returns [] (unread >>= k) w ok o b o' := by
  have hall : Returns [] (unread >>= k) (w ++ []) ok o b o' := by
    refine of_done_bind (a := w) ?_ h
    rw [List.append_nil, List.append_nil]
    rfl
  rwa [List.append_nil] at hall

/-! ## Loops over written entries -/

variable {γ : Type} {entries : List γ} {write : γ → Bytes} {fine : γ → Prop}

theorem collect {body : Decoder χ σ β} {value : γ → β}
    (h : ∀ c ∈ entries, ∀ rest, Returns rest body (write c) (fine c) o (value c) o) :
    Returns rest (collect entries.length body) (entries.map write).flatten
      (∀ c ∈ entries, fine c) o (entries.map value) o := by
  induction entries with
  | nil => exact (pure []).of_iff (by simp)
  | cons c entries ih =>
    have hrest := ih fun c hc => h c (List.mem_cons_of_mem _ hc)
    have hlast : Returns rest (Decoder.collect entries.length body >>= fun bs =>
        Pure.pure (value c :: bs)) ((entries.map write).flatten ++ [])
        ((∀ c ∈ entries, fine c) ∧ True) o (value c :: entries.map value) o :=
      bind hrest (.pure _)
    rw [List.append_nil] at hlast
    have hall : Returns rest (Decoder.collect (entries.length + 1) body)
        (write c ++ (entries.map write).flatten) (fine c ∧ (∀ c ∈ entries, fine c) ∧ True) o
        (value c :: entries.map value) o :=
      bind (h c (List.mem_cons_self ..) _) hlast
    exact hall.of_iff (by simp)

theorem times {body : Decoder χ σ Unit} {push : σ → γ → σ}
    (h : ∀ c ∈ entries, ∀ o rest, Returns rest body (write c) (fine c) o () (push o c)) :
    Returns rest (times entries.length body) (entries.map write).flatten
      (∀ c ∈ entries, fine c) o () (entries.foldl push o) := by
  induction entries generalizing o with
  | nil => exact (pure ()).of_iff (by simp)
  | cons c entries ih =>
    have hrest := ih (o := push o c) fun c hc => h c (List.mem_cons_of_mem _ hc)
    have hall : Returns rest (Decoder.times (entries.length + 1) body)
        (write c ++ (entries.map write).flatten) (fine c ∧ ∀ c ∈ entries, fine c) o ()
        (entries.foldl push (push o c)) :=
      bind (h c (List.mem_cons_self ..) o _) hrest
    exact hall.of_iff (by simp)

/-- The loop whose entries end up in a list of the object. -/
theorem times_appended {body : Decoder χ σ Unit} {value : γ → β} (list : σ → List β)
    (put : List β → σ → σ) (list_put : ∀ bs o, list (put bs o) = bs)
    (put_put : ∀ bs cs o, put bs (put cs o) = put bs o) (put_list : ∀ o, put (list o) o = o)
    (h : ∀ c ∈ entries, ∀ o rest,
      Returns rest body (write c) (fine c) o () (put (list o ++ [value c]) o)) :
    Returns rest (Decoder.times entries.length body) (entries.map write).flatten
      (∀ c ∈ entries, fine c) o () (put (list o ++ entries.map value) o) := by
  have hfold : entries.foldl (fun o c => put (list o ++ [value c]) o) o =
      put (list o ++ entries.map value) o := by
    clear h
    induction entries generalizing o with
    | nil => rw [List.foldl_nil, List.map_nil, List.append_nil, put_list]
    | cons c entries ih =>
      rw [List.foldl_cons, ih, list_put, put_put, List.append_assoc, List.map_cons,
        List.singleton_append]
  rw [← hfold]
  exact times h

end Returns

end Reasoning.Decoder
