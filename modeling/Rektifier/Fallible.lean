import Mathlib.Tactic

namespace Fallible

open List

variable {ε α β : Type}
variable {x : Except ε α} {f : α → Except ε β} {l : List α} {r : List β}

theorem ok_bind (a : α) (f : α → Except ε β) : ((.ok a : Except ε α) >>= f) = f a := rfl

theorem bind_ok_iff {r : β} :
    (x >>= f) = .ok r ↔ ∃ a, x = .ok a ∧ f a = .ok r := by
  cases x with
  | error e =>
    constructor
    · intro h
      cases h
    · rintro ⟨a, h, _⟩
      cases h
  | ok a =>
    constructor
    · intro h
      exact ⟨a, rfl, h⟩
    · rintro ⟨a', h, hf⟩
      cases h
      exact hf

theorem bind_ok {r : β} (h : (x >>= f) = .ok r) : ∃ a, x = .ok a ∧ f a = .ok r :=
  bind_ok_iff.mp h

theorem bind_error_iff {e : ε} :
    (x >>= f) = .error e ↔ x = .error e ∨ ∃ a, x = .ok a ∧ f a = .error e := by
  cases x with
  | error e' =>
    show (Except.error e' : Except ε β) = .error e ↔ _
    simp
  | ok a =>
    show f a = .error e ↔ _
    simp

theorem map_ok_iff {f : α → β} {r : β} :
    x.map f = .ok r ↔ ∃ a, x = .ok a ∧ f a = r := by
  cases x <;> simp [Except.map]

theorem forM_ok_iff {check : α → Except ε Unit} :
    l.forM check = .ok () ↔ ∀ a ∈ l, check a = .ok () := by
  induction l with
  | nil => simp [pure, Except.pure]
  | cons a l ih =>
    rw [List.forM, bind_ok_iff]
    constructor
    · rintro ⟨_, ha, hl⟩ x hx
      rcases mem_cons.mp hx with rfl | hx
      · exact ha
      · exact ih.mp hl x hx
    · intro h
      refine ⟨(), h a mem_cons_self, ih.mpr ?_⟩
      exact fun x hx => h x (mem_cons_of_mem _ hx)

/-- A loop that fails in one way fails exactly when some element does. -/
theorem mapM_ite {p : α → Prop} [DecidablePred p] (g : α → β) (e : ε) (l : List α) :
    l.mapM (fun a => if p a then (.ok (g a) : Except ε β) else .error e) =
      if ∀ a ∈ l, p a then .ok (l.map g) else .error e := by
  induction l with
  | nil => simp [pure, Except.pure]
  | cons a l ih =>
    rw [mapM_cons, ih]
    by_cases ha : p a
    · by_cases hl : ∀ a ∈ l, p a
      · rw [if_pos ha, if_pos hl, if_pos (forall_mem_cons.mpr ⟨ha, hl⟩)]
        rfl
      · rw [if_pos ha, if_neg hl, if_neg fun h => hl (forall_mem_cons.mp h).2]
        rfl
    · rw [if_neg ha, if_neg fun h => ha (forall_mem_cons.mp h).1]
      rfl

/-- A loop that succeeds on every element collects the results. -/
theorem mapM_filterMap {γ : Type} {f : α → Except ε γ} {g : α → Option β} {h : β → γ}
    (hf : ∀ a ∈ l, ∃ b, g a = some b ∧ f a = .ok (h b)) :
    l.mapM f = .ok ((l.filterMap g).map h) := by
  induction l with
  | nil => rfl
  | cons a l ih =>
    obtain ⟨b, hg, hb⟩ := hf a mem_cons_self
    have hl := ih fun x hx => hf x (mem_cons_of_mem _ hx)
    rw [mapM_cons, hb, hl, filterMap_cons_some hg]
    rfl

theorem forall₂_of_mapM_ok (h : l.mapM f = .ok r) :
    List.Forall₂ (fun a b => f a = .ok b) l r := by
  induction l generalizing r with
  | nil =>
    cases h
    exact .nil
  | cons a l ih =>
    rw [mapM_cons] at h
    obtain ⟨b, hb, h⟩ := bind_ok h
    obtain ⟨bs, hbs, h⟩ := bind_ok h
    cases h
    exact .cons hb (ih hbs)

/-- Another order of the elements is another order of the results. -/
theorem mapM_ok_of_perm {l l' : List α} (hperm : l'.Perm l)
    (h : l.mapM f = .ok r) : ∃ r', l'.mapM f = .ok r' ∧ r'.Perm r := by
  induction hperm generalizing r with
  | nil => exact ⟨r, h, List.Perm.refl r⟩
  | cons a _ ih =>
    rw [mapM_cons] at h
    obtain ⟨b, hb, h⟩ := bind_ok h
    obtain ⟨bs, hbs, h⟩ := bind_ok h
    cases h
    obtain ⟨bs', hbs', hsame⟩ := ih hbs
    refine ⟨b :: bs', ?_, hsame.cons b⟩
    rw [mapM_cons, hb, ok_bind, hbs']
    rfl
  | swap a₁ a₂ l =>
    rw [mapM_cons, mapM_cons] at h
    obtain ⟨b₁, hb₁, h⟩ := bind_ok h
    obtain ⟨bs, hbs, h⟩ := bind_ok h
    obtain ⟨b₂, hb₂, hbs⟩ := bind_ok hbs
    obtain ⟨bs', hbs', hbs⟩ := bind_ok hbs
    cases h
    cases hbs
    refine ⟨b₂ :: b₁ :: bs', ?_, List.Perm.swap b₁ b₂ bs'⟩
    rw [mapM_cons, hb₂, ok_bind, mapM_cons, hb₁, ok_bind, hbs']
    rfl
  | trans _ _ ih₁ ih₂ =>
    obtain ⟨r₂, h₂, hsame₂⟩ := ih₂ h
    obtain ⟨r₁, h₁, hsame₁⟩ := ih₁ h₂
    exact ⟨r₁, h₁, hsame₁.trans hsame₂⟩

theorem mem_of_forall₂ {R : α → β → Prop} (h : List.Forall₂ R l r) :
    ∀ b ∈ r, ∃ a ∈ l, R a b := by
  induction h with
  | nil => exact nofun
  | @cons a b l r hab _ ih =>
    refine forall_mem_cons.mpr ⟨⟨a, mem_cons_self, hab⟩, ?_⟩
    intro b' hb'
    obtain ⟨a', ha', hab'⟩ := ih b' hb'
    exact ⟨a', mem_cons_of_mem _ ha', hab'⟩

theorem mem_of_mapM_ok (h : l.mapM f = .ok r) :
    ∀ b ∈ r, ∃ a ∈ l, f a = .ok b :=
  mem_of_forall₂ (forall₂_of_mapM_ok h)

/-- What one element of a pass has, one result has. -/
theorem exists_iff_of_forall₂ {R : α → β → Prop} {p : α → Prop} {q : β → Prop}
    (h : List.Forall₂ R l r) (hiff : ∀ a ∈ l, ∀ b, R a b → (p a ↔ q b)) :
    (∃ a ∈ l, p a) ↔ ∃ b ∈ r, q b := by
  induction h with
  | nil => simp
  | @cons a b l r hab _ ih =>
    rw [exists_mem_cons_iff, exists_mem_cons_iff, hiff a mem_cons_self b hab,
      ih fun a ha => hiff a (mem_cons_of_mem _ ha)]

/-- What each element of a pass keeps, the list does. -/
theorem map_eq_of_forall₂ {γ : Type*} {R : α → β → Prop} {p : β → γ}
    {q : α → γ} (h : List.Forall₂ R l r) (hkeeps : ∀ a b, R a b → p b = q a) :
    r.map p = l.map q := by
  induction h with
  | nil => rfl
  | cons hb _ ih => rw [map_cons, map_cons, hkeeps _ _ hb, ih]

theorem map_eq_of_mapM_ok {γ : Type*} {p : β → γ}
    {q : α → γ} (h : l.mapM f = .ok r) (hkeeps : ∀ a b, f a = .ok b → p b = q a) :
    r.map p = l.map q :=
  map_eq_of_forall₂ (forall₂_of_mapM_ok h) hkeeps

theorem toOption_bind_two {γ : Type} (x : Except ε α) (y : Except ε β) (f : α → β → γ) :
    (do let a ← x; let b ← y; return f a b).toOption
      = x.toOption.bind fun a => y.toOption.map (f a) := by
  cases x <;> cases y <;> rfl

theorem foldlM_preserves {f : β → α → Option β} {s s' : β} (prop : β → Prop)
    (hstep : ∀ s a s', f s a = some s' → prop s → prop s') (h : l.foldlM f s = some s')
    (hstart : prop s) : prop s' := by
  induction l generalizing s with
  | nil =>
    cases h
    exact hstart
  | cons a l ih =>
    rw [foldlM_cons] at h
    obtain ⟨s₁, hfirst, hrest⟩ := Option.bind_eq_some_iff.mp h
    exact ih hrest (hstep s a s₁ hfirst hstart)

/-- What every step takes back from the state after it, the loop does. -/
theorem foldlM_reflects {f : β → α → Option β} {s s' : β} (prop : β → Prop)
    (hstep : ∀ s a s', f s a = some s' → prop s' → prop s) (h : l.foldlM f s = some s')
    (hend : prop s') : prop s := by
  induction l generalizing s with
  | nil =>
    cases h
    exact hend
  | cons a l ih =>
    rw [foldlM_cons] at h
    obtain ⟨s₁, hfirst, hrest⟩ := Option.bind_eq_some_iff.mp h
    exact hstep s a s₁ hfirst (ih hrest)

/-- What each step may bring about and none undoes. -/
theorem foldlM_collects {f : β → α → Option β} {s s' : β} (prop : β → Prop)
    (adds : α → Prop) (hstep : ∀ s, ∀ a ∈ l, ∀ s', f s a = some s' → (prop s' ↔ prop s ∨ adds a))
    (h : l.foldlM f s = some s') : prop s' ↔ prop s ∨ ∃ a ∈ l, adds a := by
  induction l generalizing s with
  | nil =>
    cases h
    simp
  | cons a l ih =>
    rw [foldlM_cons] at h
    obtain ⟨s₁, hfirst, hrest⟩ := Option.bind_eq_some_iff.mp h
    rw [ih (fun s a ha => hstep s a (mem_cons_of_mem _ ha)) hrest,
      hstep s a mem_cons_self s₁ hfirst, exists_mem_cons_iff, or_assoc]

theorem foldlM_ok_preserves {f : β → α → Except ε β} {s s' : β} (prop : β → Prop)
    (hstep : ∀ s, ∀ a ∈ l, ∀ s', f s a = .ok s' → prop s → prop s') (h : l.foldlM f s = .ok s')
    (hstart : prop s) : prop s' := by
  induction l generalizing s with
  | nil =>
    cases h
    exact hstart
  | cons a l ih =>
    rw [foldlM_cons] at h
    obtain ⟨s₁, hfirst, hrest⟩ := bind_ok h
    have hlater : ∀ s, ∀ a ∈ l, ∀ s', f s a = .ok s' → prop s → prop s' :=
      fun s a ha => hstep s a (mem_cons_of_mem _ ha)
    exact ih hlater hrest (hstep s a mem_cons_self s₁ hfirst hstart)

/-- Built from the last element to the first. -/
theorem foldlM_ok_induction {f : β → α → Except ε β} {R : β → List α → β → Prop}
    (hnil : ∀ s, R s [] s)
    (hcons : ∀ s a l s₁ s', f s a = .ok s₁ → R s₁ l s' → R s (a :: l) s') {s s' : β}
    (h : l.foldlM f s = .ok s') : R s l s' := by
  induction l generalizing s with
  | nil =>
    cases h
    exact hnil _
  | cons a l ih =>
    rw [foldlM_cons] at h
    obtain ⟨s₁, hfirst, hrest⟩ := bind_ok h
    exact hcons s a l s₁ s' hfirst (ih hrest)

/-- A computation that does not fail with this error. -/
def Avoids (e : ε) (x : Except ε α) : Prop := x ≠ .error e

theorem avoids_ok (e : ε) (a : α) : Avoids e (.ok a : Except ε α) := nofun

theorem Avoids.bind {e : ε} (hx : Avoids e x)
    (hf : ∀ a, x = .ok a → Avoids e (f a)) : Avoids e (x >>= f) := by
  cases x with
  | error e' => exact fun h => hx (by cases h; rfl)
  | ok a => exact hf a rfl

theorem avoids_foldlM {e : ε} {f : β → α → Except ε β}
    (hf : ∀ s, ∀ a ∈ l, Avoids e (f s a)) (s : β) : Avoids e (l.foldlM f s) := by
  induction l generalizing s with
  | nil => exact avoids_ok e s
  | cons a l ih =>
    rw [foldlM_cons]
    refine Avoids.bind (hf s a mem_cons_self) fun s' _ => ih (fun s a ha => ?_) s'
    exact hf s a (mem_cons_of_mem _ ha)

theorem avoids_mapM {e : ε} (hf : ∀ a ∈ l, Avoids e (f a)) :
    Avoids e (l.mapM f) := by
  induction l with
  | nil => exact avoids_ok e []
  | cons a l ih =>
    rw [mapM_cons]
    refine Avoids.bind (hf a mem_cons_self) fun b _ => ?_
    refine Avoids.bind (ih fun a ha => hf a (mem_cons_of_mem _ ha)) fun bs _ => ?_
    exact avoids_ok e (b :: bs)

theorem toOption_eq_some_iff {a : α} : x.toOption = some a ↔ x = .ok a := by
  cases x <;> simp [Except.toOption]

/-- A success exactly under the condition, and with this result. -/
def YieldsWhen (x : Except ε α) (P : Prop) (a : α) : Prop := ∀ b, x = .ok b ↔ P ∧ b = a

theorem yieldsWhen_ok (a : α) : YieldsWhen (.ok a : Except ε α) True a := by
  intro b
  rw [true_and, Except.ok.injEq, eq_comm]

theorem YieldsWhen.bind {P Q : Prop} {a : α} {b : β}
    (hx : YieldsWhen x P a) (hf : YieldsWhen (f a) Q b) : YieldsWhen (x >>= f) (P ∧ Q) b := by
  intro c
  rw [bind_ok_iff]
  constructor
  · rintro ⟨a', ha, hc⟩
    obtain ⟨hP, rfl⟩ := (hx a').mp ha
    obtain ⟨hQ, rfl⟩ := (hf c).mp hc
    exact ⟨⟨hP, hQ⟩, rfl⟩
  · rintro ⟨⟨hP, hQ⟩, rfl⟩
    exact ⟨a, (hx a).mpr ⟨hP, rfl⟩, (hf _).mpr ⟨hQ, rfl⟩⟩

theorem YieldsWhen.congr {P Q : Prop} {a : α} (hx : YieldsWhen x P a)
    (h : Q ↔ P) : YieldsWhen x Q a := by
  intro b
  rw [hx b, h]

theorem YieldsWhen.map {P : Prop} {a : α} (hx : YieldsWhen x P a) (f : α → β) :
    YieldsWhen (x >>= fun a => .ok (f a)) P (f a) := by
  intro c
  rw [hx.bind (yieldsWhen_ok (f a)) c, and_true]

theorem YieldsWhen.mapM {P : α → Prop} {g : α → β} (h : ∀ a ∈ l, YieldsWhen (f a) (P a) (g a)) :
    YieldsWhen (l.mapM f) (∀ a ∈ l, P a) (l.map g) := by
  induction l with
  | nil =>
    intro b
    exact (yieldsWhen_ok [] b).trans (by simp)
  | cons a l ih =>
    have hrest := ih fun a ha => h a (mem_cons_of_mem _ ha)
    intro b
    rw [mapM_cons, forall_mem_cons]
    exact (h a mem_cons_self).bind (hrest.map (g a :: ·)) b

structure BothYield (x x' : Except ε α) (P : Prop) (a : α) : Prop where
  left : YieldsWhen x P a
  right : YieldsWhen x' P a

namespace BothYield

variable {x' : Except ε α} {P Q : Prop} {a : α}

theorem bind {f' : α → Except ε β} {b : β} (hx : BothYield x x' P a)
    (hf : BothYield (f a) (f' a) Q b) : BothYield (x >>= f) (x' >>= f') (P ∧ Q) b :=
  ⟨hx.left.bind hf.left, hx.right.bind hf.right⟩

theorem congr (hx : BothYield x x' P a) (h : Q ↔ P) : BothYield x x' Q a :=
  ⟨hx.left.congr h, hx.right.congr h⟩

theorem map (hx : BothYield x x' P a) (f : α → β) :
    BothYield (x >>= fun a => .ok (f a)) (x' >>= fun a => .ok (f a)) P (f a) :=
  ⟨hx.left.map f, hx.right.map f⟩

theorem mapM {γ : Type} {f' : γ → Except ε β} {r : α → γ} {P : α → Prop} {g : α → β}
    (h : ∀ a ∈ l, BothYield (f a) (f' (r a)) (P a) (g a)) :
    BothYield (l.mapM f) ((l.map r).mapM f') (∀ a ∈ l, P a) (l.map g) := by
  refine ⟨.mapM fun a ha => (h a ha).left, ?_⟩
  rw [mapM_map]
  exact .mapM fun a ha => (h a ha).right

theorem toOption_eq (hx : BothYield x x' P a) : x'.toOption = x.toOption := by
  refine Option.ext fun b => ?_
  rw [toOption_eq_some_iff, toOption_eq_some_iff, hx.left b, hx.right b]

end BothYield

end Fallible
