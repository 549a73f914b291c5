import AppDriver.Facts.Normal
import AppDriver.Proofs.AcceptedDocuments
import AppDriver.Proofs.Coverage
import Mathlib.Data.List.TakeWhile

/-! The spelling of type names. A document can write a nested type with `$` as well as with `.`, and
its names are compared as they stand. Bringing all of them into source form exposes what was exposed
before and, in two places, more: an interface that is not found in the catalog under its binary name
is found under the other one, and a handler binding reaches the component that it spells
differently. -/

namespace AppDriver

/-- The callee with its type names in source form. -/
def Target.normal (t : Target) : Target := (t.1.normal, t.2.normal)

/-- Whether two lists have the same callees. -/
def Target.Agree (ts us : List Target) : Prop :=
  ∀ t, (∃ u ∈ ts, u.same t = true) ↔ ∃ u ∈ us, u.same t = true

/-! ### Names in source form -/

/-- Whether the bytes of a name are those of ASCII characters after `$`. -/
def TypeName.isPlain (t : TypeName) : Bool :=
  t.text.toByteArray.data.toList.all fun b => 36 < b.toNat && b.toNat < 128

theorem toNat_of_utf8EncodeChar {c : Char}
    (h : ∀ b ∈ String.utf8EncodeChar c, 36 < b.toNat ∧ b.toNat < 128) :
    36 < c.toNat ∧ c.toNat < 128 := by
  have hval : c.val.toNat = c.toNat := rfl
  simp only [String.utf8EncodeChar, hval] at h
  split_ifs at h with hascii
  · have hbyte := h _ (List.mem_singleton.2 rfl)
    simp at hbyte
    omega
  -- The first byte of every longer encoding has its highest bit set.
  all_goals
    have hbyte := h _ List.mem_cons_self
    simp at hbyte
    omega

/-- Such a name holds no blank and no `$`. -/
theorem TypeName.normal_of_isPlain {t : TypeName} (h : t.isPlain = true) : t.normal = t := by
  have hchars : ∀ c ∈ t.text.toList, 36 < c.toNat ∧ c.toNat < 128 := fun c hc => by
    refine toNat_of_utf8EncodeChar fun b hb => ?_
    have hmem : b ∈ t.text.toByteArray.data.toList := by
      rw [← String.utf8Encode_toList]
      simpa [List.utf8Encode] using ⟨c, hc, hb⟩
    simpa using List.all_eq_true.1 h b hmem
  have hblank : ∀ c ∈ t.text.toList, ¬isBlank c = true := fun c hc => by
    obtain ⟨hlow, hhigh⟩ := hchars c hc
    simp [isBlank]
    omega
  have htrim : trimBoth isBlank t.text.toList = t.text.toList := by
    rw [trimBoth, List.dropWhile_eq_self_iff.2 fun hl => hblank _ (List.getElem_mem hl),
      List.dropWhile_eq_self_iff.2 fun hl => hblank _ (List.mem_reverse.1 (List.getElem_mem hl)),
      List.reverse_reverse]
  have hseparators : t.text.toList.map (fun c => if c = '$' then '.' else c) = t.text.toList := by
    refine (List.map_congr_left fun c hc => if_neg ?_).trans (List.map_id _)
    rintro rfl
    exact absurd (hchars _ hc).1 (by decide)
  rw [normal, ofText, htrim, hseparators, String.ofList_toList]

/-- Whether all names of a catalog are in source form. -/
def ListenerCatalog.IsNormal (c : ListenerCatalog) : Prop :=
  ∀ i ∈ c.interfaces, i.name.normal = i.name ∧ ∀ m ∈ i.methods, m.normal = m

/-- The names of a method. -/
def Signature.typeNames (m : Signature) : List TypeName := m.params ++ m.returns.toList

theorem Signature.normal_of_isPlain {m : Signature} (h : ∀ t ∈ m.typeNames, t.isPlain = true) :
    m.normal = m := by
  have hparams : m.params.map TypeName.normal = m.params :=
    (List.map_congr_left fun t ht =>
      TypeName.normal_of_isPlain (h t (List.mem_append_left _ ht))).trans (List.map_id _)
  have hreturns : m.returns.map TypeName.normal = m.returns := by
    cases hreturns : m.returns with
    | none => rfl
    | some t =>
        have ht := h t (List.mem_append_right _ (by simp [hreturns]))
        rw [Option.map_some, TypeName.normal_of_isPlain ht]
  rw [normal, hparams, hreturns]

theorem ListenerCatalog.android_isNormal : android.IsNormal := by
  have hplain : ∀ i ∈ android.interfaces, i.name.isPlain = true ∧
      ∀ m ∈ i.methods, ∀ t ∈ m.typeNames, t.isPlain = true := by decide +kernel
  intro i hi
  exact ⟨TypeName.normal_of_isPlain (hplain i hi).1, fun m hm =>
    Signature.normal_of_isPlain ((hplain i hi).2 m hm)⟩

/-! ### What is exposed -/

/-- Only an interface in source form is found. -/
theorem ListenerCatalog.IsNormal.methodsOf {c : ListenerCatalog} (h : c.IsNormal) {t : TypeName}
    {m : Signature} (hm : m ∈ c.methodsOf t) : t.normal = t ∧ m.normal = m := by
  rw [ListenerCatalog.methodsOf] at hm
  cases hfound : c.get? t with
  | none =>
      rw [hfound] at hm
      cases hm
  | some i =>
      rw [hfound] at hm
      obtain ⟨hname, hmethods⟩ := h i (List.mem_of_find?_eq_some hfound)
      have hkey : i.name = t := by simpa using List.find?_some hfound
      exact ⟨hkey ▸ hname, hmethods m hm⟩

theorem TypeName.normal_view : TypeName.view.normal = TypeName.view := by decide +kernel

theorem Signature.same_normal {a b : Signature} (h : a.same b = true) :
    a.normal.same b.normal = true := by
  obtain ⟨hname, hparams⟩ := Signature.same_iff.1 h
  exact Signature.same_iff.2 ⟨hname, congrArg (List.map TypeName.normal) hparams⟩

namespace Component

variable {c : Component} {config : HandlerSection} {listeners : ListenerCatalog}
  {handlers : List HandlerBinding}

/-! ### Handlers -/

theorem methodsNamed_normal (c : Component) (name : String) :
    c.normal.methodsNamed name = (c.methodsNamed name).map Signature.normal := by
  simp only [methodsNamed, normal, ← List.map_append, List.filter_map]
  rfl

theorem handlerSignature_normal (c : Component) (name : String) :
    c.normal.handlerSignature name = (c.handlerSignature name).normal := by
  rw [handlerSignature, methodsNamed_normal, List.head?_map, handlerSignature]
  cases (c.methodsNamed name).head? with
  | some m => rfl
  | none => simp [Signature.normal, TypeName.normal_view]

theorem declaresMethod_normal (c : Component) (name : String) :
    c.normal.declaresMethod name = c.declaresMethod name := by
  rw [declaresMethod, methodsNamed_normal, List.isEmpty_map, declaresMethod]
  rfl

/-- A binding that names the component in another spelling reaches it in source form only. -/
theorem reaches_normal (b : HandlerBinding) (c : Component) (policy : HandlerPolicy) :
    b.normal.reaches c.normal policy = true ↔ b.reaches c policy = true ∨
      ∃ n, b.component = some n ∧ n ≠ c.name ∧ n.normal = c.name.normal := by
  obtain ⟨component, method, identifier⟩ := b
  cases component with
  | some n =>
      simp only [HandlerBinding.reaches, HandlerBinding.normal, Option.map_some, beq_iff_eq, normal,
        Option.some.injEq, exists_eq_left']
      by_cases heq : n = c.name <;> simp [heq]
  | none =>
      simp only [HandlerBinding.reaches, HandlerBinding.normal, Option.map_none,
        declaresMethod_normal, reduceCtorEq, false_and, exists_false, or_false]
      rfl

/-! ### Exposed methods -/

/-- The methods that a component is not driven with because of a spelling: those of an interface that
the catalog knows in source form only, and the handlers that are bound to it in another spelling. -/
inductive Overlooks (c : Component) (config : HandlerSection) (listeners : ListenerCatalog)
    (handlers : List HandlerBinding) : Signature → Prop
  | interface {l m} (hl : l ∈ c.listeners) (hnone : l.methods = [])
      (hexpand : config.expandListenerCatalog = true) (hspelling : l.interface.normal ≠ l.interface)
      (hm : m ∈ listeners.methodsOf l.interface.normal) : Overlooks c config listeners handlers m
  | binding {b n} (hb : b ∈ handlers) (hcomponent : b.component = some n) (hspelling : n ≠ c.name)
      (hname : n.normal = c.name.normal) :
      Overlooks c config listeners handlers (c.normal.handlerSignature b.method)

theorem Exposes.normal (hlisteners : listeners.IsNormal) {m : Signature}
    (h : c.Exposes config listeners handlers m) :
    c.normal.Exposes config listeners (handlers.map HandlerBinding.normal) m.normal := by
  cases h with
  | override hm => exact .override (List.mem_map_of_mem hm)
  | explicit hl hm => exact .explicit (List.mem_map_of_mem hl) (List.mem_map_of_mem hm)
  | @known l m hl hnone hexpand hm =>
      obtain ⟨hname, hsame⟩ := hlisteners.methodsOf hm
      have hl' : l.normal ∈ c.normal.listeners := List.mem_map_of_mem hl
      rw [hsame]
      refine .known hl' (by rw [ListenerImpl.normal, hnone]; rfl) hexpand ?_
      rw [ListenerImpl.normal, hname]
      exact hm
  | @bound b hb hreaches =>
      have hb' : b.normal ∈ handlers.map HandlerBinding.normal := List.mem_map_of_mem hb
      rw [← handlerSignature_normal]
      exact .bound (b := b.normal) hb'
        ((reaches_normal b c config.policy).2 (.inl hreaches))
  | listed hname =>
      rw [← handlerSignature_normal]
      exact .listed hname

theorem Overlooks.normal {m : Signature} (h : c.Overlooks config listeners handlers m) :
    c.normal.Exposes config listeners (handlers.map HandlerBinding.normal) m := by
  cases h with
  | @interface l m hl hnone hexpand hspelling hm =>
      have hl' : l.normal ∈ c.normal.listeners := List.mem_map_of_mem hl
      exact .known hl' (by rw [ListenerImpl.normal, hnone]; rfl) hexpand hm
  | @binding b n hb hcomponent hspelling hname =>
      have hb' : b.normal ∈ handlers.map HandlerBinding.normal := List.mem_map_of_mem hb
      exact .bound (b := b.normal) hb'
        ((reaches_normal b c config.policy).2 (.inr ⟨n, hcomponent, hspelling, hname⟩))

/-- In source form a component exposes what it exposed before and what it overlooked. -/
theorem exposes_normal_iff (hlisteners : listeners.IsNormal) {m : Signature} :
    c.normal.Exposes config listeners (handlers.map HandlerBinding.normal) m ↔
      (∃ m', c.Exposes config listeners handlers m' ∧ m'.normal = m) ∨
        c.Overlooks config listeners handlers m := by
  constructor
  · intro h
    cases h with
    | override hm =>
        obtain ⟨m', hm', rfl⟩ := List.mem_map.1 hm
        exact .inl ⟨m', .override hm', rfl⟩
    | explicit hl hm =>
        obtain ⟨l, hl', rfl⟩ := List.mem_map.1 hl
        obtain ⟨m', hm', rfl⟩ := List.mem_map.1 hm
        exact .inl ⟨m', .explicit hl' hm', rfl⟩
    | known hl hnone hexpand hm =>
        obtain ⟨l, hl', rfl⟩ := List.mem_map.1 hl
        have hnone' : l.methods = [] := List.map_eq_nil_iff.1 hnone
        by_cases hspelling : l.interface.normal = l.interface
        · have hm' : m ∈ listeners.methodsOf l.interface := hspelling ▸ hm
          exact .inl ⟨m, .known hl' hnone' hexpand hm', (hlisteners.methodsOf hm).2⟩
        · exact .inr (.interface hl' hnone' hexpand hspelling hm)
    | bound hb hreaches =>
        obtain ⟨b, hb', rfl⟩ := List.mem_map.1 hb
        rcases (reaches_normal b c _).1 hreaches with hreaches | ⟨n, hcomponent, hspelling, hname⟩
        · exact .inl ⟨_, .bound hb' hreaches, (handlerSignature_normal c b.method).symm⟩
        · exact .inr (.binding (b := b) hb' hcomponent hspelling hname)
    | listed hname => exact .inl ⟨_, .listed hname, (handlerSignature_normal c _).symm⟩
  · rintro (⟨m', hm', rfl⟩ | hoverlooked)
    · exact hm'.normal hlisteners
    · exact hoverlooked.normal

end Component

/-! ### Accepted documents -/

namespace Synthesizer

variable {y : Synthesizer} {d : Facts}

theorem mem_driven_of_accepted (hd : d.validate = .ok ()) {c : Component} :
    c ∈ y.driven d.components ↔ c ∈ d.components := by
  rw [mem_driven]
  refine ⟨List.mem_of_find?_eq_some, fun hc => ?_⟩
  cases hfound : d.components.find? (·.name == c.name) with
  | none => exact (List.find?_eq_none.1 hfound c hc (beq_self_eq_true c.name)).elim
  | some c' =>
      have hname : c'.name = c.name := by simpa using List.find?_some hfound
      rw [List.inj_on_of_nodup_map (Facts.names_nodup hd) (List.mem_of_find?_eq_some hfound) hc
        hname]

/-- The callees for an accepted document are the methods that its components expose. -/
theorem exists_callTarget_iff (hd : d.validate = .ok ()) {n : TypeName} {m : Signature} :
    (∃ u ∈ (y.synthesizeFacts d).callTargets, u.same (n, m) = true) ↔
      ∃ c ∈ d.components, c.name = n ∧
        ∃ m', c.Exposes y.config.handlers y.listeners d.handlers m' ∧ m'.same m = true := by
  rw [Procedure.exists_callTarget, synthesizeFacts, exists_step]
  constructor
  · rintro ⟨c, hc, hname, hexposed⟩
    exact ⟨c, (mem_driven_of_accepted hd).1 hc, hname, exists_scheduled.1 hexposed⟩
  · rintro ⟨c, hc, hname, hexposed⟩
    exact ⟨c, (mem_driven_of_accepted hd).2 hc, hname, exists_scheduled.2 hexposed⟩

/-- The same in source form. -/
theorem exists_callTarget_normal_iff (hd : d.validate = .ok ()) {n : TypeName} {m : Signature} :
    (∃ u ∈ (y.synthesizeFacts d).callTargets.map Target.normal, u.same (n, m) = true) ↔
      ∃ c ∈ d.components, c.name.normal = n ∧
        ∃ m', c.Exposes y.config.handlers y.listeners d.handlers m' ∧
          m'.normal.same m = true := by
  constructor
  · rintro ⟨_, hmem, hsame⟩
    obtain ⟨u, hu, rfl⟩ := List.mem_map.1 hmem
    obtain ⟨hname, hmethod⟩ := Target.same_iff.1 hsame
    obtain ⟨c, hc, hcname, m', hexposed, hm'⟩ :=
      (exists_callTarget_iff hd).1 ⟨u, hu, (Target.same_refl u : u.same (u.1, u.2) = true)⟩
    exact ⟨c, hc, hcname ▸ hname, m', hexposed,
      Signature.same_trans (Signature.same_normal hm') hmethod⟩
  · rintro ⟨c, hc, rfl, m', hexposed, hm'⟩
    obtain ⟨u, hu, hsame⟩ := (exists_callTarget_iff hd).2
      ⟨c, hc, rfl, m', hexposed, m'.same_refl⟩
    obtain ⟨hname, hmethod⟩ := Target.same_iff.1 hsame
    exact ⟨u.normal, List.mem_map_of_mem hu, Target.same_iff.2 ⟨congrArg TypeName.normal hname,
      Signature.same_trans (Signature.same_normal hmethod) hm'⟩⟩

/-- **Binary and source spelling.** Between two accepted documents of which the second is the first in
source form, the callees agree, up to their spelling, exactly if every component exposes anyway what
it overlooks because of a spelling. -/
theorem spellings_agree_iff (hlisteners : y.listeners.IsNormal) (hd : d.validate = .ok ())
    (hnormal : d.normal.validate = .ok ()) :
    Target.Agree ((y.synthesizeFacts d).callTargets.map Target.normal)
        (y.synthesizeFacts d.normal).callTargets ↔
      ∀ c ∈ d.components, ∀ m, c.Overlooks y.config.handlers y.listeners d.handlers m →
        ∃ m', c.Exposes y.config.handlers y.listeners d.handlers m' ∧
          m'.normal.same m = true := by
  constructor
  · intro hagree c hc m hoverlooked
    obtain ⟨c', hc', hname, hexposed⟩ := (exists_callTarget_normal_iff hd).1
      ((hagree (c.name.normal, m)).2 ((exists_callTarget_iff hnormal).2
        ⟨c.normal, List.mem_map_of_mem hc, rfl, m, hoverlooked.normal, m.same_refl⟩))
    -- In source form the names are still different, so it is the same component.
    have hnodup : (d.components.map fun c => c.name.normal).Nodup := by
      have hnames := Facts.names_nodup hnormal
      rwa [Facts.normal, List.map_map] at hnames
    obtain rfl := List.inj_on_of_nodup_map hnodup hc' hc hname
    exact hexposed
  · rintro hkept ⟨n, m⟩
    rw [exists_callTarget_normal_iff hd, exists_callTarget_iff hnormal]
    constructor
    · rintro ⟨c, hc, hname, m', hexposed, hsame⟩
      exact ⟨c.normal, List.mem_map_of_mem hc, hname, m'.normal, hexposed.normal hlisteners, hsame⟩
    · rintro ⟨_, hmem, hname, m', hexposed, hsame⟩
      obtain ⟨c, hc, rfl⟩ := List.mem_map.1 hmem
      rcases (Component.exposes_normal_iff hlisteners).1 hexposed with
        ⟨m'', hbefore, rfl⟩ | hoverlooked
      · exact ⟨c, hc, hname, m'', hbefore, hsame⟩
      · obtain ⟨m'', hbefore, hsame'⟩ := hkept c hc m' hoverlooked
        exact ⟨c, hc, hname, m'', hbefore, Signature.same_trans hsame' hsame⟩

/-- An activity that is a listener of clicks, with the interface in binary spelling. -/
def clickable (methods : List Signature) : Facts where
  components := [
    { name := ⟨"app.Main"⟩
      kind := .activity
      listeners := [{ interface := ⟨"android.view.View$OnClickListener"⟩, methods }] }]

def onClick : Signature := { name := "onClick", params := [TypeName.view] }

/-- Where the methods of the interface are listed, its spelling does not matter. -/
theorem listed_click_agrees : ({} : Synthesizer).listeners.IsNormal ∧
    (clickable [onClick]).validate = .ok () ∧ (clickable [onClick]).normal.validate = .ok () ∧
    Target.Agree ((({} : Synthesizer).synthesizeFacts (clickable [onClick])).callTargets.map
        Target.normal)
      (({} : Synthesizer).synthesizeFacts (clickable [onClick]).normal).callTargets := by
  have hlisteners : ({} : Synthesizer).listeners.IsNormal := ListenerCatalog.android_isNormal
  have hd : (clickable [onClick]).validate = .ok () := by decide +kernel
  have hnormal : (clickable [onClick]).normal.validate = .ok () := by decide +kernel
  refine ⟨hlisteners, hd, hnormal, (spellings_agree_iff hlisteners hd hnormal).2 ?_⟩
  intro c hc m hoverlooked
  obtain rfl := List.mem_singleton.1 hc
  cases hoverlooked with
  | interface hl hnone =>
      obtain rfl := List.mem_singleton.1 hl
      cases hnone
  | binding hb => cases hb

/-- Where they are not, the interface is not found under its binary name, and no click is driven. -/
theorem click_overlooked : (clickable []).validate = .ok () ∧
    (clickable []).normal.validate = .ok () ∧
    ¬Target.Agree ((({} : Synthesizer).synthesizeFacts (clickable [])).callTargets.map
        Target.normal)
      (({} : Synthesizer).synthesizeFacts (clickable []).normal).callTargets := by
  have hbinary : (({} : Synthesizer).synthesizeFacts (clickable [])).callTargets = [] := by
    decide +kernel
  have hsource : (({} : Synthesizer).synthesizeFacts (clickable []).normal).callTargets =
      [(⟨"app.Main"⟩, onClick)] := by decide +kernel
  refine ⟨by decide +kernel, by decide +kernel, fun hagree => ?_⟩
  rw [hbinary, hsource] at hagree
  obtain ⟨u, hu, -⟩ := (hagree (⟨"app.Main"⟩, onClick)).2
    ⟨_, List.mem_cons_self, Target.same_refl _⟩
  cases hu

end Synthesizer
end AppDriver
