import ScriptRunner.Proofs.Script.Resolution

/-!
# What has been linked

`Linked ss p` says what the program `p` holds once the sites `ss` have been linked, in this order: every function was
emitted for one of them, after the functions that the children of this one call; a site calls the function of the first
site that calls it, which for a template has the same base name and the same body; and the table of shared bodies knows
the templates and nothing else. Linking one more node keeps this (`Linked.link`), hence every forest does
(`Linked.emit`), and so it is with whatever one more node keeps (`Forest.emit_induction`).
-/

namespace ScriptRunner.Script

section
variable {find? : String → Option Definition}

/-! ## One node -/

namespace Occurrence

variable (o : Occurrence find?)

theorem toList_body (inner : List Call) : (o.body inner).toList = o.own.fill inner := String.toList_ofList

theorem templateBody_eq (h : o.isRaw = false) (inner : List Call) : templateBody o.definition inner = o.body inner := by
  simp [templateBody, body, own, OwnText.fill, h, fillBody_eq]

theorem rawBody_eq (h : o.isRaw = true) (inner : List Call) : rawBody o.code inner = o.body inner := by
  have hplace : o.own.hasPlace ↔ hasPlaceholder o.code.toList = true := by
    simp [own, h, OwnText.hasPlace, hasPlaceholder_eq_true_iff]
  unfold rawBody
  simp only [body, OwnText.fill, hplace]
  split
  · rename_i hp
    simp [own, h, hp, fillBody_eq]
  · rename_i hp
    have hone : pieces o.code.toList = [o.code.toList] := by
      have hlength : ¬ 1 < (pieces o.code.toList).length := fun hl => hp (hasPlaceholder_eq_true_iff.2 hl)
      match hps : pieces o.code.toList, pieces_ne_nil o.code.toList with
      | [l], _ => rw [← intercalate_pieces o.code.toList, hps, List.intercalate_singleton]
      | _ :: _ :: _, _ => rw [hps] at hlength; simp at hlength
    by_cases hinner : inner = []
    · simp [own, h, hp, hone, hinner, callLines, Text.joinLines]
    · simp [own, h, hp, hinner, callLines_eq_nil_iff]

theorem link_of_raw (h : o.isRaw = true) (inner : List Call) (p : Program) : o.link inner p =
    (⟨(p.linkNumbered o.base o.parameters (o.body inner)).1, o.arguments⟩,
      (p.linkNumbered o.base o.parameters (o.body inner)).2) := by
  have hraw : o.definition.isRawSource = true := h
  have hparameters : o.parameters = [] := by simp [parameters, h]
  have harguments : o.arguments = [] := by simp [arguments, h]
  simp only [link, linkNode, hraw, if_true, Program.linkRaw, hparameters, harguments, ← o.rawBody_eq h]
  rfl

theorem link_of_template (h : o.isRaw = false) (inner : List Call) (p : Program) : o.link inner p =
    (⟨(p.linkTemplate o.base o.parameters (o.body inner)).1, o.arguments⟩,
      (p.linkTemplate o.base o.parameters (o.body inner)).2) := by
  have hraw : o.definition.isRawSource = false := h
  have hparameters : o.parameters = o.bound.map fun b => identifier b.1 := by simp [parameters, h]
  have harguments : o.arguments = o.bound.map fun b => b.2.literal := by simp [arguments, h]
  simp only [link, linkNode, hraw, hparameters, harguments, ← o.templateBody_eq h]
  rfl

end Occurrence

namespace Site

def body (s : Site find?) : String := s.toOccurrence.body s.inner

/-- The function that is emitted for the site, if one is. -/
def function (s : Site find?) : Function := ⟨s.call.callee, s.parameters, s.body⟩

/-- The program has the function of the site, behind the functions that the calls of its children name. -/
def EmittedIn (s : Site find?) (p : Program) : Prop :=
  ∃ before after, p.functions = before ++ s.function :: after ∧ ∀ c ∈ s.inner, c.callee ∈ before.map Function.name

end Site

/-- The first site that calls a function. -/
def firstCaller (ss : List (Site find?)) (callee : String) : Option (Site find?) :=
  ss.find? fun t => t.call.callee == callee

section
variable {ss : List (Site find?)} {callee : String} {t : Site find?}

theorem firstCaller_mem (h : firstCaller ss callee = some t) : t ∈ ss := List.mem_of_find?_eq_some h

theorem firstCaller_callee (h : firstCaller ss callee = some t) : t.call.callee = callee := by
  simpa using List.find?_some h

/-- The first site that calls a function stays the first one. -/
theorem firstCaller_concat (h : firstCaller ss callee = some t) (s : Site find?) :
    firstCaller (ss ++ [s]) callee = some t := by
  unfold firstCaller at h ⊢
  rw [List.find?_append, h, Option.some_or]

theorem firstCaller_new {s : Site find?} (h : ∀ t ∈ ss, t.call.callee ≠ s.call.callee) :
    firstCaller (ss ++ [s]) s.call.callee = some s := by
  have hnone : ss.find? (fun t => t.call.callee == s.call.callee) = none :=
    List.find?_eq_none.2 fun t ht he => h t ht (by simpa using he)
  rw [firstCaller, List.find?_append, hnone, Option.none_or, List.find?_cons_of_pos (by simp)]

end

/-- Linking a node gives it the arguments of its own, and finds the function that its base name and body share, or adds
its function; a template is shared from then on. -/
theorem Occurrence.link_cases (o : Occurrence find?) (inner : List Call) (p : Program) :
    let linked := o.link inner p
    let s : Site find? := ⟨o, inner, linked.1⟩
    s.call.arguments = s.arguments ∧
      ((s.isRaw = false ∧ p.shared? s.base s.body = some s.call.callee ∧ linked.2 = p) ∨
        (p.Adds linked.2 s.function ∧ IsName s.call.callee ∧ ∀ base body name,
          linked.2.shared? base body = some name ↔ p.shared? base body = some name ∨
            (s.isRaw = false ∧ s.base = base ∧ s.body = body ∧ s.call.callee = name))) := by
  have hbase : IsName o.base := isName_identifier o.definition.name
  cases hraw : o.isRaw with
  | true =>
    obtain ⟨hadds, hshared, hname⟩ := p.linkNumbered_spec o.base o.parameters (o.body inner)
    simp only [o.link_of_raw hraw, hraw, true_and, Bool.true_eq_false, false_and, or_false, false_or]
    refine ⟨hadds, Program.isName_linked hbase (.inr hname), fun base body name => ?_⟩
    rw [Program.shared?, hshared]
    rfl
  | false =>
    simp only [o.link_of_template hraw, true_and, hraw]
    rcases p.linkTemplate_cases o.base o.parameters (o.body inner) with
      ⟨hfound, hsame⟩ | ⟨hnone, hadds, hshared, hname⟩
    · exact .inl ⟨hfound, hsame⟩
    · refine .inr ⟨hadds, Program.isName_linked hbase hname, fun base body name => ?_⟩
      rw [Program.shared?_append hshared hnone, Prod.mk.injEq, and_assoc]
      rfl

/-! ## Many nodes -/

/-- What the program holds once the sites have been linked. -/
structure Linked (ss : List (Site find?)) (p : Program) : Prop where
  nodup : p.functionNames.Nodup
  names : ∀ name ∈ p.functionNames, IsName name
  origin : ∀ f ∈ p.functions, ∃ s ∈ ss, s.function = f ∧ s.EmittedIn p
  arguments : ∀ s ∈ ss, s.call.arguments = s.arguments
  inner : ∀ s ∈ ss, ∀ c ∈ s.inner, ∃ t ∈ ss, t.call = c
  first : ∀ s ∈ ss, ∃ t, firstCaller ss s.call.callee = some t ∧ t.EmittedIn p ∧
    t.isRaw = s.isRaw ∧ t.base = s.base ∧ t.body = s.body
  raw : ∀ s ∈ ss, s.isRaw = true → s.EmittedIn p
  shared : ∀ s ∈ ss, s.isRaw = false → p.shared? s.base s.body = some s.call.callee
  table : ∀ {base body name}, p.shared? base body = some name →
    ∃ t ∈ ss, t.isRaw = false ∧ t.base = base ∧ t.body = body ∧ t.call.callee = name

variable {ss : List (Site find?)} {p q : Program}

namespace Site.EmittedIn

variable {s : Site find?}

theorem extend {l : List Function} (h : s.EmittedIn p) (hq : q.functions = p.functions ++ l) : s.EmittedIn q := by
  obtain ⟨before, after, hp, hinner⟩ := h
  exact ⟨before, after ++ l, by rw [hq, hp, List.append_assoc, List.cons_append], hinner⟩

theorem mem (h : s.EmittedIn p) : s.function ∈ p.functions := by
  obtain ⟨before, after, hp, -⟩ := h
  rw [hp]
  exact List.mem_append_right before List.mem_cons_self

theorem callee_mem (h : s.EmittedIn p) : s.call.callee ∈ p.functionNames :=
  List.mem_map_of_mem (f := Function.name) h.mem

/-- The function of the site stands behind those that its children call. -/
theorem idxOf_lt (h : s.EmittedIn p) (hp : p.functionNames.Nodup) {c : Call} (hc : c ∈ s.inner) :
    p.functionNames.idxOf c.callee < p.functionNames.idxOf s.call.callee := by
  obtain ⟨before, after, hfunctions, hinner⟩ := h
  have hnames : p.functionNames = before.map Function.name ++ s.call.callee :: after.map Function.name := by
    simp [Program.functionNames, hfunctions, function]
  rw [hnames] at hp ⊢
  have hnew : s.call.callee ∉ before.map Function.name := fun hm =>
    (List.nodup_append.1 hp).2.2 _ hm _ List.mem_cons_self rfl
  rw [List.idxOf_append_of_mem (hinner c hc), List.idxOf_append_of_notMem hnew, List.idxOf_cons_self, Nat.add_zero]
  exact List.idxOf_lt_length_of_mem (hinner c hc)

end Site.EmittedIn

namespace Linked

theorem empty : Linked ([] : List (Site find?)) .empty where
  nodup := List.nodup_nil
  names := nofun
  origin := nofun
  arguments := nofun
  inner := nofun
  first := nofun
  raw := nofun
  shared := nofun
  table := nofun

theorem callee_mem (h : Linked ss p) {s : Site find?} (hs : s ∈ ss) : s.call.callee ∈ p.functionNames := by
  obtain ⟨t, ht, hemitted, -⟩ := h.first s hs
  exact firstCaller_callee ht ▸ hemitted.callee_mem

/-- Templates of one base name and one body call one function. -/
theorem callee_eq (h : Linked ss p) {s t : Site find?} (hs : s ∈ ss) (ht : t ∈ ss) (hsraw : s.isRaw = false)
    (htraw : t.isRaw = false) (hbase : s.base = t.base) (hbody : s.body = t.body) : s.call.callee = t.call.callee := by
  have hshared := h.shared s hs hsraw
  rw [hbase, hbody, h.shared t ht htraw] at hshared
  exact (Option.some.inj hshared).symm

/-- Nothing that is linked shows in the fragments. -/
theorem congr (h : Linked ss p) (hfunctions : q.functions = p.functions) (hshared : q.shared = p.shared) :
    Linked ss q := by
  have hnames : q.functionNames = p.functionNames := by rw [Program.functionNames, hfunctions]; rfl
  have hemitted : ∀ {s : Site find?}, s.EmittedIn p → s.EmittedIn q := fun he =>
    he.extend (l := []) (by rw [hfunctions, List.append_nil])
  have htable : ∀ base body, q.shared? base body = p.shared? base body := fun base body => by
    rw [Program.shared?, hshared]; rfl
  constructor
  · exact hnames ▸ h.nodup
  · exact hnames ▸ h.names
  · intro f hf
    obtain ⟨s, hs, rfl, he⟩ := h.origin f (hfunctions ▸ hf)
    exact ⟨s, hs, rfl, hemitted he⟩
  · exact h.arguments
  · exact h.inner
  · intro s hs
    obtain ⟨t, ht, he, hsame⟩ := h.first s hs
    exact ⟨t, ht, hemitted he, hsame⟩
  · exact fun s hs hr => hemitted (h.raw s hs hr)
  · exact fun s hs hr => (htable _ _).trans (h.shared s hs hr)
  · exact fun ht => h.table ((htable _ _).symm.trans ht)

/-- What holds of a list of sites and of one more holds of all of them. -/
theorem forall_mem_concat {P : Site find? → Prop} {s : Site find?} (hss : ∀ t ∈ ss, P t) (hs : P s) :
    ∀ t ∈ ss ++ [s], P t := by
  intro t ht
  rcases List.mem_append.1 ht with ht | ht
  · exact hss t ht
  · exact List.mem_singleton.1 ht ▸ hs

theorem inner_concat (h : Linked ss p) {s : Site find?} (hinner : ∀ c ∈ s.inner, ∃ t ∈ ss, t.call = c) :
    ∀ t ∈ ss ++ [s], ∀ c ∈ t.inner, ∃ u ∈ ss ++ [s], u.call = c := by
  have hmore : ∀ {c : Call}, (∃ u ∈ ss, u.call = c) → ∃ u ∈ ss ++ [s], u.call = c := fun ⟨u, hu, hc⟩ =>
    ⟨u, List.mem_append_left _ hu, hc⟩
  exact forall_mem_concat (fun t ht c hc => hmore (h.inner t ht c hc)) fun c hc => hmore (hinner c hc)

/-- A template is linked to the function that it shares. -/
theorem reuse (h : Linked ss p) {s : Site find?} (hraw : s.isRaw = false)
    (hfound : p.shared? s.base s.body = some s.call.callee) (harguments : s.call.arguments = s.arguments)
    (hinner : ∀ c ∈ s.inner, ∃ t ∈ ss, t.call = c) : Linked (ss ++ [s]) p := by
  constructor
  · exact h.nodup
  · exact h.names
  · intro f hf
    obtain ⟨t, ht, hsame⟩ := h.origin f hf
    exact ⟨t, List.mem_append_left _ ht, hsame⟩
  · exact forall_mem_concat h.arguments harguments
  · exact h.inner_concat hinner
  · refine forall_mem_concat (fun t ht => ?_) ?_
    · obtain ⟨u, hu, hsame⟩ := h.first t ht
      exact ⟨u, firstCaller_concat hu s, hsame⟩
    · obtain ⟨t, ht, htraw, htbase, htbody, htcallee⟩ := h.table hfound
      obtain ⟨u, hu, hemitted, huraw, hubase, hubody⟩ := h.first t ht
      rw [htcallee] at hu
      exact ⟨u, firstCaller_concat hu s, hemitted, by rw [huraw, htraw, hraw], hubase.trans htbase, hubody.trans htbody⟩
  · refine forall_mem_concat h.raw fun hr => ?_
    rw [hraw] at hr
    cases hr
  · exact forall_mem_concat h.shared fun _ => hfound
  · intro base body name hn
    obtain ⟨t, ht, hsame⟩ := h.table hn
    exact ⟨t, List.mem_append_left _ ht, hsame⟩

/-- A node is linked to a function of its own. -/
theorem add (h : Linked ss p) {s : Site find?} (hadds : p.Adds q s.function) (hname : IsName s.call.callee)
    (hshared : ∀ base body name, q.shared? base body = some name ↔ p.shared? base body = some name ∨
      (s.isRaw = false ∧ s.base = base ∧ s.body = body ∧ s.call.callee = name))
    (harguments : s.call.arguments = s.arguments) (hinner : ∀ c ∈ s.inner, ∃ t ∈ ss, t.call = c) :
    Linked (ss ++ [s]) q := by
  have hnames : q.functionNames = p.functionNames ++ [s.call.callee] := hadds.functionNames
  have hnew : s.call.callee ∉ p.functionNames := hadds.fresh
  have hemitted : s.EmittedIn q := by
    refine ⟨p.functions, [], hadds.functions, fun c hc => ?_⟩
    obtain ⟨t, ht, rfl⟩ := hinner c hc
    exact h.callee_mem ht
  constructor
  · rw [hnames]
    refine List.nodup_append.2 ⟨h.nodup, List.nodup_singleton _, fun a ha b hb he => hnew ?_⟩
    rw [← List.mem_singleton.1 hb, ← he]
    exact ha
  · rw [hnames]
    intro name hn
    rcases List.mem_append.1 hn with hn | hn
    · exact h.names name hn
    · exact List.mem_singleton.1 hn ▸ hname
  · rw [hadds.functions]
    intro f hf
    rcases List.mem_append.1 hf with hf | hf
    · obtain ⟨t, ht, rfl, he⟩ := h.origin f hf
      exact ⟨t, List.mem_append_left _ ht, rfl, he.extend hadds.functions⟩
    · exact ⟨s, List.mem_append_right _ List.mem_cons_self, (List.mem_singleton.1 hf).symm, hemitted⟩
  · exact forall_mem_concat h.arguments harguments
  · exact h.inner_concat hinner
  · refine forall_mem_concat (fun t ht => ?_) ⟨s, ?_, hemitted, rfl, rfl, rfl⟩
    · obtain ⟨u, hu, he, hsame⟩ := h.first t ht
      exact ⟨u, firstCaller_concat hu s, he.extend hadds.functions, hsame⟩
    · exact firstCaller_new fun t ht he => hnew (he ▸ h.callee_mem ht)
  · exact forall_mem_concat (fun t ht hr => (h.raw t ht hr).extend hadds.functions) fun _ => hemitted
  · exact forall_mem_concat (fun t ht hr => (hshared _ _ _).2 (.inl (h.shared t ht hr))) fun hr =>
      (hshared _ _ _).2 (.inr ⟨hr, rfl, rfl, rfl⟩)
  · intro base body name hn
    rcases (hshared base body name).1 hn with hn | hsame
    · obtain ⟨t, ht, hsame⟩ := h.table hn
      exact ⟨t, List.mem_append_left _ ht, hsame⟩
    · exact ⟨s, List.mem_append_right _ List.mem_cons_self, hsame⟩

theorem link (h : Linked ss p) (o : Occurrence find?) {inner : List Call} (hinner : ∀ c ∈ inner, ∃ t ∈ ss, t.call = c) :
    Linked (ss ++ [⟨o, inner, (o.link inner p).1⟩]) (o.link inner p).2 := by
  obtain ⟨harguments, ⟨hraw, hfound, hsame⟩ | ⟨hadds, hname, hshared⟩⟩ := o.link_cases inner p
  · rw [hsame]
    exact h.reuse hraw hfound harguments hinner
  · exact h.add hadds hname hshared harguments hinner

end Linked

/-! ## Forests -/

/-- The calls of a forest are those of its sites. -/
theorem Forest.exists_site (f : Forest find?) : ∀ (p : Program), ∀ c ∈ (f.emit p).1, ∃ s ∈ f.sites p, s.call = c := by
  induction f with
  | nil => exact fun p c hc => absurd hc List.not_mem_nil
  | fragment o rest ih => exact fun p => ih _
  | call o children rest _ ih =>
    intro p c hc
    rcases List.mem_cons.1 hc with rfl | hc
    · exact ⟨_, List.mem_append_right _ List.mem_cons_self, rfl⟩
    · obtain ⟨s, hs, he⟩ := ih _ c hc
      exact ⟨s, List.mem_append_right _ (List.mem_cons_of_mem _ hs), he⟩

/-- What a fragment and one more node keep holds after a forest, whose nodes are linked one by one in the order of its
sites. -/
theorem Forest.emit_induction {motive : List (Site find?) → Program → Prop}
    (fragment : ∀ {ss : List (Site find?)} {p : Program} (code : String), motive ss p → motive ss (p.addFragment code))
    (link : ∀ {ss : List (Site find?)} {p : Program} (o : Occurrence find?) (inner : List Call), motive ss p →
      (∀ c ∈ inner, ∃ t ∈ ss, t.call = c) → motive (ss ++ [⟨o, inner, (o.link inner p).1⟩]) (o.link inner p).2)
    (f : Forest find?) : ∀ {ss : List (Site find?)} {p : Program}, motive ss p →
      motive (ss ++ f.sites p) (f.emit p).2 := by
  induction f with
  | nil =>
    intro ss p h
    show motive (ss ++ []) p
    rw [List.append_nil]
    exact h
  | fragment o rest ih => exact fun h => ih (fragment o.code h)
  | call o children rest ihChildren ihRest =>
    intro ss p h
    have hlinked := link o _ (ihChildren h) fun c (hc : c ∈ (children.emit p).1) => by
      obtain ⟨s, hs, he⟩ := children.exists_site p c hc
      exact ⟨s, List.mem_append_right ss hs, he⟩
    have hrest := ihRest hlinked
    rw [List.append_assoc, List.append_assoc] at hrest
    exact hrest

/-- **What has been linked** after a forest. -/
theorem Linked.emit (f : Forest find?) (h : Linked ss p) : Linked (ss ++ f.sites p) (f.emit p).2 :=
  f.emit_induction (fun _ h => h.congr rfl rfl) (fun o _ h hinner => h.link o hinner) h

theorem Forest.linked {f : Forest find?} {calls : List Call} (h : f.emit .empty = (calls, p)) :
    Linked (f.sites .empty) p := by
  have hlinked := Linked.emit f Linked.empty
  rw [h] at hlinked
  exact hlinked

/-- What holds of the empty program and is kept by fragments and nodes holds of a generated program. -/
theorem Forest.sites_induction {motive : List (Site find?) → Program → Prop} (empty : motive [] .empty)
    (fragment : ∀ {ss : List (Site find?)} {p : Program} (code : String), motive ss p → motive ss (p.addFragment code))
    (link : ∀ {ss : List (Site find?)} {p : Program} (o : Occurrence find?) (inner : List Call), Linked ss p →
      Linked (ss ++ [⟨o, inner, (o.link inner p).1⟩]) (o.link inner p).2 → motive ss p →
      motive (ss ++ [⟨o, inner, (o.link inner p).1⟩]) (o.link inner p).2)
    {f : Forest find?} {calls : List Call} (h : f.emit .empty = (calls, p)) : motive (f.sites .empty) p := by
  have hboth : Linked (f.sites .empty) (f.emit .empty).2 ∧ motive (f.sites .empty) (f.emit .empty).2 :=
    f.emit_induction (motive := fun ss p => Linked ss p ∧ motive ss p)
      (fun code h => ⟨h.1.congr rfl rfl, fragment code h.2⟩)
      (fun o inner h hinner => ⟨h.1.link o hinner, link o inner h.1 (h.1.link o hinner) h.2⟩) ⟨Linked.empty, empty⟩
  rw [h] at hboth
  exact hboth.2

end

end ScriptRunner.Script
