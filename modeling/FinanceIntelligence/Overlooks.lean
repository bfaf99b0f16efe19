import FinanceIntelligence.Alone

/-!
# A program that overlooks a difference

A general layer over `Alone`: two runs of one program, alone, in contents that differ. If what the
program reads and the checks of its statements do not tell the contents apart, then both runs end
in the same way, and the contents differ afterwards no more than before (`Overlooks`). The rules
follow the syntax of programs.
-/

namespace FinanceIntelligence

variable {R A I N D X α β : Type}

/-- Statements do not tell related contents apart, and keep them related. -/
structure Schema.Respects (S : Schema R A D) (rel : D → D → Prop) : Prop where
  /-- the constraints -/
  check : ∀ {a d d'}, rel d d' → S.check a d' = S.check a d
  /-- the effects -/
  apply : ∀ {a d d'}, rel d d' → rel (S.apply a d) (S.apply a d')

/-- Two runs that have come equally far, in related contents. -/
structure Solo.Like (rel : D → D → Prop) (σ τ : Solo A D) : Prop where
  /-- the same statements are pending -/
  pending : τ.pending = σ.pending
  /-- as many answers were given -/
  asked : τ.asked = σ.asked
  /-- the contents are related -/
  db : rel σ.db τ.db

variable {S : Schema R A D} {rel : D → D → Prop} {answer : ℕ → I} {σ τ : Solo A D}

namespace Schema.Respects

theorem view (h : S.Respects rel) (l : List A) {d d' : D} (hd : rel d d') :
    rel (S.view l d) (S.view l d') := by
  induction l generalizing d d' with
  | nil => exact hd
  | cons a l ih => exact ih (h.apply hd)

/-- What is pending takes effect in both, or in neither. -/
theorem replay (h : S.Respects rel) (l : List A) {d d' : D} (hd : rel d d') :
    (∃ e e', S.replay l d = .ok e ∧ S.replay l d' = .ok e' ∧ rel e e') ∨
      ∃ a, S.replay l d = .error a ∧ S.replay l d' = .error a := by
  induction l generalizing d d' with
  | nil => exact .inl ⟨d, d', rfl, rfl, hd⟩
  | cons a l ih =>
    rw [Schema.replay, Schema.replay, h.check hd]
    cases S.check a d with
    | true => exact ih (h.apply hd)
    | false => exact .inr ⟨a, rfl, rfl⟩

end Schema.Respects

theorem Solo.Like.view (h : S.Respects rel) (hσ : σ.Like rel τ) : rel (σ.view S) (τ.view S) := by
  rw [Solo.view, Solo.view, hσ.pending]
  exact h.view _ hσ.db

namespace Prog

/-- Both runs end in the same way, and equally far. -/
def SameEnd (rel : D → D → Prop) (x y : Except X α × Solo A D) : Prop :=
  y.1 = x.1 ∧ x.2.Like rel y.2

/-- The program ends in the same way in related contents. -/
def Overlooks (S : Schema R A D) (rel : D → D → Prop) (p : Prog R A I N D X α) : Prop :=
  ∀ (answer : ℕ → I) {σ τ : Solo A D}, σ.Like rel τ →
    SameEnd rel (p.alone S answer σ) (p.alone S answer τ)

/-- One part after the other; the second one may depend on what the first one has found. -/
theorem SameEnd.bind {p : Prog R A I N D X α} {f : α → Prog R A I N D X β}
    (hp : SameEnd rel (p.alone S answer σ) (p.alone S answer τ))
    (hf : ∀ {a σ' τ'}, p.alone S answer σ = (.ok a, σ') → p.alone S answer τ = (.ok a, τ') →
      σ'.Like rel τ' → SameEnd rel ((f a).alone S answer σ') ((f a).alone S answer τ')) :
    SameEnd rel ((p.bind f).alone S answer σ) ((p.bind f).alone S answer τ) := by
  rw [alone_bind, alone_bind]
  match hx : p.alone S answer σ, hy : p.alone S answer τ with
  | (.ok a, σ'), (b, τ') =>
    rw [hx, hy] at hp
    obtain rfl : b = .ok a := hp.1
    exact hf hx hy hp.2
  | (.error x, σ'), (b, τ') =>
    rw [hx, hy] at hp
    obtain rfl : b = .error x := hp.1
    exact ⟨rfl, hp.2⟩

theorem Overlooks.bind {p : Prog R A I N D X α} {f : α → Prog R A I N D X β}
    (hp : p.Overlooks S rel) (hf : ∀ a, (f a).Overlooks S rel) : (p.bind f).Overlooks S rel :=
  fun answer _ _ h => (hp answer h).bind fun _ _ h' => hf _ answer h'

/-- A part and its handler. -/
theorem SameEnd.tryCatch {p : Prog R A I N D X α} {f : X → Prog R A I N D X α}
    (hp : SameEnd rel (p.alone S answer σ) (p.alone S answer τ))
    (hf : ∀ x, (f x).Overlooks S rel) :
    SameEnd rel ((p.tryCatch f).alone S answer σ) ((p.tryCatch f).alone S answer τ) := by
  rw [alone_tryCatch, alone_tryCatch]
  match hx : p.alone S answer σ, hy : p.alone S answer τ with
  | (.ok a, σ'), (b, τ') =>
    rw [hx, hy] at hp
    obtain rfl : b = .ok a := hp.1
    exact ⟨rfl, hp.2⟩
  | (.error x, σ'), (b, τ') =>
    rw [hx, hy] at hp
    obtain rfl : b = .error x := hp.1
    exact hf x answer hp.2

theorem Overlooks.tryCatch {p : Prog R A I N D X α} {f : X → Prog R A I N D X α}
    (hp : p.Overlooks S rel) (hf : ∀ x, (f x).Overlooks S rel) :
    (p.tryCatch f).Overlooks S rel :=
  fun answer _ _ h => (hp answer h).tryCatch hf

theorem overlooks_ret (a : α) : (.ret a : Prog R A I N D X α).Overlooks S rel :=
  fun _ _ _ h => ⟨rfl, h⟩

theorem overlooks_raise (x : X) : (.raise x : Prog R A I N D X α).Overlooks S rel :=
  fun _ _ _ h => ⟨rfl, h⟩

theorem overlooks_ask {k : I → Prog R A I N D X α} (hk : ∀ i, (k i).Overlooks S rel) :
    (Prog.ask k).Overlooks S rel := by
  intro answer σ τ h
  simp only [alone, h.asked]
  exact hk _ answer ⟨h.pending, rfl, h.db⟩

theorem overlooks_read (hS : S.Respects rel) {k : D → Prog R A I N D X α}
    (hsame : ∀ {d d'}, rel d d' → k d' = k d) (hk : ∀ d, (k d).Overlooks S rel) :
    (Prog.read k).Overlooks S rel := by
  intro answer σ τ h
  simp only [alone, hsame (h.view hS)]
  exact hk _ answer h

theorem overlooks_lock (hS : S.Respects rel) {r : R} {q : D → Bool} {k : Bool → Prog R A I N D X α}
    (hsame : ∀ {d d'}, rel d d' → q d' = q d) (hk : ∀ b, (k b).Overlooks S rel) :
    (Prog.lock r q k).Overlooks S rel := by
  intro answer σ τ h
  simp only [alone, hsame (h.view hS)]
  exact hk _ answer h

theorem overlooks_write (hS : S.Respects rel) {a : A} {k : Bool → Prog R A I N D X α}
    (hk : ∀ b, (k b).Overlooks S rel) : (Prog.write a k).Overlooks S rel := by
  intro answer σ τ h
  simp only [alone, hS.check (h.view hS)]
  split
  · exact hk _ answer ⟨by rw [h.pending], h.asked, h.db⟩
  · exact hk _ answer h

theorem overlooks_commit (hS : S.Respects rel) {k : Option A → Prog R A I N D X α}
    (hk : ∀ o, (k o).Overlooks S rel) : (Prog.commit k).Overlooks S rel := by
  intro answer σ τ h
  simp only [alone, h.pending]
  rcases hS.replay σ.pending h.db with ⟨e, e', he, he', hrel⟩ | ⟨a, ha, ha'⟩
  · rw [he, he']
    exact hk _ answer ⟨rfl, h.asked, hrel⟩
  · rw [ha, ha']
    exact hk _ answer ⟨rfl, h.asked, h.db⟩

theorem overlooks_rollback {k : Prog R A I N D X α} (hk : k.Overlooks S rel) :
    (Prog.rollback k).Overlooks S rel :=
  fun answer _ _ h => hk answer ⟨rfl, h.asked, h.db⟩

end Prog

end FinanceIntelligence
