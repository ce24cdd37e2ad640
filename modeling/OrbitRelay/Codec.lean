import Mathlib.Data.List.Forall2
import Mathlib.Logic.Function.Basic

/-!
# Text forms and fallible computations

Values of a program that are kept as text in a database: a printed form that is
read back, the canonical text form (which reads nothing but what was printed), and
a serialised form that may refuse to print but never misreads what it printed. The
second half is the small calculus of `Except` that the models of fallible code use.
-/
namespace Codec

/-- A value is read back from its own text; other texts of it may be read too. -/
structure PrintedForm (α : Type) where
  text : α → String
  parse : String → Option α
  parse_text : ∀ a, parse (text a) = some a

attribute [simp] PrintedForm.parse_text

/-- A canonical text form: exactly one text per value. -/
structure TextForm (α : Type) extends PrintedForm α where
  text_parse : ∀ {s a}, parse s = some a → text a = s

variable {α β ε : Type}

theorem PrintedForm.text_injective (t : PrintedForm α) : Function.Injective t.text := by
  intro a b h
  have ha := t.parse_text a
  rw [h, t.parse_text b] at ha
  exact (Option.some.inj ha).symm

@[simp] theorem PrintedForm.text_inj (t : PrintedForm α) {a b : α} : t.text a = t.text b ↔ a = b :=
  t.text_injective.eq_iff

/-- What is read from a printed text is the value that was printed. -/
theorem PrintedForm.parsed_eq (t : PrintedForm α) {s : String} {a b : α} (h : t.parse s = some a)
    (hs : s = t.text b) : a = b := by
  rw [hs, t.parse_text] at h
  exact (Option.some.inj h).symm

theorem TextForm.parse_eq_some_iff (t : TextForm α) {s : String} {a : α} :
    t.parse s = some a ↔ s = t.text a := by
  constructor
  · intro h
    exact (t.text_parse h).symm
  · rintro rfl
    exact t.parse_text a

/-- Texts are their own text form. -/
def TextForm.self : TextForm String := ⟨⟨id, some, fun _ => rfl⟩, fun h => Option.some.inj h.symm⟩

/-- A serialised form: printing may fail, and reading inverts what was printed. -/
structure SerialForm (α : Type) where
  print : α → Option String
  read : String → Option α
  read_print : ∀ {a s}, print a = some s → read s = some a

def SerialForm.self : SerialForm String := ⟨some, some, fun h => h.symm⟩

/-- `Option::ok_or_else` and `Result::map_err`. -/
def okOr (e : ε) : Option α → Except ε α
  | none => .error e
  | some a => .ok a

@[simp] theorem okOr_none (e : ε) : okOr e (none : Option α) = .error e := rfl
@[simp] theorem okOr_some (e : ε) (a : α) : okOr e (some a) = .ok a := rfl

theorem okOr_eq_ok {e : ε} {o : Option α} {a : α} : okOr e o = .ok a ↔ o = some a := by
  cases o <;> simp [okOr]

theorem bind_eq_ok {x : Except ε α} {f : α → Except ε β} {b : β} :
    (x >>= f) = .ok b ↔ ∃ a, x = .ok a ∧ f a = .ok b := by
  cases x <;> simp [bind, Except.bind]

@[simp] theorem ok_bind (a : α) (f : α → Except ε β) : ((.ok a : Except ε α) >>= f) = f a := rfl
@[simp] theorem error_bind (e : ε) (f : α → Except ε β) :
    ((.error e : Except ε α) >>= f) = .error e := rfl

/-- Peel the first step off a computation that succeeded. -/
theorem bind_ok {x : Except ε α} {f : α → Except ε β} {b : β} (h : (x >>= f) = .ok b) :
    ∃ a, x = .ok a ∧ f a = .ok b := bind_eq_ok.mp h

/-- A list is mapped when each of its elements is. -/
theorem mapM_eq_ok {f : α → Except ε β} {l : List α} {ys : List β} :
    l.mapM f = .ok ys ↔ List.Forall₂ (fun x y => f x = .ok y) l ys := by
  induction l generalizing ys with
  | nil =>
    rw [List.mapM_nil, List.forall₂_nil_left_iff]
    exact ⟨fun h => (Except.ok.inj h).symm, fun h => by rw [h]; rfl⟩
  | cons x l ih =>
    rw [List.mapM_cons]
    constructor
    · intro h
      obtain ⟨y, hy, h⟩ := bind_ok h
      obtain ⟨zs, hzs, h⟩ := bind_ok h
      cases h
      exact .cons hy (ih.mp hzs)
    · intro h
      cases h with
      | cons hy hzs => rw [hy, ok_bind, ih.mpr hzs, ok_bind]; rfl

theorem exists_mapM_ok {f : α → Except ε β} {l : List α} (h : ∀ x ∈ l, ∃ y, f x = .ok y) :
    ∃ ys, l.mapM f = .ok ys := by
  induction l with
  | nil => exact ⟨[], rfl⟩
  | cons x l ih =>
    obtain ⟨y, hy⟩ := h x List.mem_cons_self
    obtain ⟨ys, hys⟩ := ih (fun z hz => h z (List.mem_cons_of_mem x hz))
    exact ⟨y :: ys, by rw [List.mapM_cons, hy, ok_bind, hys, ok_bind]; rfl⟩

theorem mem_of_mapM_ok {f : α → Except ε β} {l : List α} {ys : List β} (h : l.mapM f = .ok ys) (y : β) :
    y ∈ ys ↔ ∃ x ∈ l, f x = .ok y := by
  induction l generalizing ys with
  | nil =>
    cases h
    simp
  | cons x l ih =>
    rw [List.mapM_cons] at h
    obtain ⟨z, hz, h⟩ := bind_ok h
    obtain ⟨zs, hzs, h⟩ := bind_ok h
    cases h
    rw [List.mem_cons, ih hzs]
    constructor
    · rintro (rfl | ⟨w, hw, hf⟩)
      · exact ⟨x, List.mem_cons_self, hz⟩
      · exact ⟨w, List.mem_cons_of_mem _ hw, hf⟩
    · rintro ⟨w, hw, hf⟩
      rcases List.mem_cons.mp hw with rfl | hw
      · exact .inl (Except.ok.inj (hf.symm.trans hz))
      · exact .inr ⟨w, hw, hf⟩

theorem image_of_mapM_ok {f : α → Except ε β} {l : List α} {ys : List β} (h : l.mapM f = .ok ys) {x : α}
    (hx : x ∈ l) : ∃ y ∈ ys, f x = .ok y := by
  induction l generalizing ys with
  | nil => cases hx
  | cons w l ih =>
    rw [List.mapM_cons] at h
    obtain ⟨z, hz, h⟩ := bind_ok h
    obtain ⟨zs, hzs, h⟩ := bind_ok h
    cases h
    rcases List.mem_cons.mp hx with rfl | hx
    · exact ⟨z, List.mem_cons_self, hz⟩
    · obtain ⟨y, hy, hf⟩ := ih hzs hx
      exact ⟨y, List.mem_cons_of_mem z hy, hf⟩

theorem forM_eq_ok {f : α → Except ε Unit} {l : List α} :
    l.forM f = .ok () ↔ ∀ x ∈ l, f x = .ok () := by
  induction l with
  | nil =>
    constructor
    · intro _ x hx
      cases hx
    · intro _
      rfl
  | cons x l ih =>
    show (f x >>= fun _ => l.forM f) = .ok () ↔ _
    constructor
    · intro h
      obtain ⟨⟨⟩, hx, h⟩ := bind_ok h
      intro y hy
      rcases List.mem_cons.mp hy with rfl | hy
      · exact hx
      · exact ih.mp h y hy
    · intro h
      rw [h x List.mem_cons_self, ok_bind]
      exact ih.mpr (fun y hy => h y (List.mem_cons_of_mem x hy))

end Codec
