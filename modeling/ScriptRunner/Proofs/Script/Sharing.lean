import ScriptRunner.Proofs.Script.Callees

/-!
# How much is shared

Two nodes call one function exactly when both are templates that agree on the base name and on the body with the calls
in it (`Site.Shares`). So raw code has a function of its own, and the functions are as many as the nodes with raw code
and the distinct keys of the templates together (`sharing_is_exact`). One more node keeps this (`Apart.link`): the
function of raw code is new, and that of a template is new if and only if its key is.
-/

namespace ScriptRunner.Script

section
variable {find? : String → Option Definition}

namespace Site

/-- What the function of a template is shared by. -/
def key (s : Site find?) : String × String := (s.base, s.body)

/-- The two sites are templates with one key. -/
def Shares (s t : Site find?) : Prop := s.isRaw = false ∧ t.isRaw = false ∧ s.key = t.key

end Site

/-- The keys of the templates among the sites. -/
def templateKeys (ss : List (Site find?)) : List (String × String) := (ss.filter fun s => !s.isRaw).map Site.key

variable {ss : List (Site find?)} {p : Program}

theorem mem_templateKeys {key : String × String} :
    key ∈ templateKeys ss ↔ ∃ s ∈ ss, s.isRaw = false ∧ s.key = key := by
  simp [templateKeys, and_assoc]

theorem templateKeys_concat_raw {s : Site find?} (h : s.isRaw = true) : templateKeys (ss ++ [s]) = templateKeys ss := by
  simp [templateKeys, h]

theorem templateKeys_concat_template {s : Site find?} (h : s.isRaw = false) :
    templateKeys (ss ++ [s]) = templateKeys ss ++ [s.key] := by
  simp [templateKeys, h]

/-- How many functions the sites need: one for each raw site, and one for each key of a template. -/
def functionsNeeded (ss : List (Site find?)) : Nat := (ss.countP fun s => s.isRaw) + (templateKeys ss).toFinset.card

theorem functionsNeeded_concat_raw {s : Site find?} (h : s.isRaw = true) :
    functionsNeeded (ss ++ [s]) = functionsNeeded ss + 1 := by
  rw [functionsNeeded, functionsNeeded, templateKeys_concat_raw h, List.countP_append, List.countP_singleton, if_pos h]
  omega

theorem functionsNeeded_concat_template {s : Site find?} (h : s.isRaw = false) :
    functionsNeeded (ss ++ [s]) = functionsNeeded ss + if s.key ∈ templateKeys ss then 0 else 1 := by
  have hcount : (ss ++ [s]).countP (fun t => t.isRaw) = ss.countP fun t => t.isRaw := by simp [List.countP_append, h]
  have hkeys : (templateKeys ss ++ [s.key]).toFinset = insert s.key (templateKeys ss).toFinset := by
    ext key
    simp [or_comm]
  rw [functionsNeeded, functionsNeeded, templateKeys_concat_template h, hcount, hkeys]
  split
  · rename_i hkey
    rw [Finset.insert_eq_of_mem (List.mem_toFinset.2 hkey), Nat.add_zero]
  · rename_i hkey
    rw [Finset.card_insert_of_notMem fun hm => hkey (List.mem_toFinset.1 hm), Nat.add_assoc]

namespace Linked

/-- The table of shared bodies has the keys of the templates. -/
theorem mem_templateKeys_iff (h : Linked ss p) {base body : String} :
    (base, body) ∈ templateKeys ss ↔ ∃ name, p.shared? base body = some name := by
  rw [mem_templateKeys]
  constructor
  · rintro ⟨s, hs, hraw, hkey⟩
    obtain ⟨rfl, rfl⟩ := Prod.ext_iff.1 hkey
    exact ⟨_, h.shared s hs hraw⟩
  · rintro ⟨name, hfound⟩
    obtain ⟨t, ht, hraw, rfl, rfl, -⟩ := h.table hfound
    exact ⟨t, ht, hraw, rfl⟩

/-- A template calls the function of another site exactly if they share it. -/
theorem callee_eq_iff (h : Linked ss p) {s t : Site find?} (hs : s ∈ ss) (ht : t ∈ ss) (htraw : t.isRaw = false) :
    s.call.callee = t.call.callee ↔ s.Shares t := by
  constructor
  · intro he
    obtain ⟨u, hu, -, hsraw, hsbase, hsbody⟩ := h.first s hs
    obtain ⟨v, hv, -, hvraw, hvbase, hvbody⟩ := h.first t ht
    rw [he, hv] at hu
    cases hu
    exact ⟨by rw [← hsraw, hvraw, htraw], htraw, Prod.ext (hsbase.symm.trans hvbase) (hsbody.symm.trans hvbody)⟩
  · rintro ⟨hsraw, -, hkey⟩
    exact h.callee_eq hs ht hsraw htraw (Prod.ext_iff.1 hkey).1 (Prod.ext_iff.1 hkey).2

end Linked

/-- Functions are shared by templates of one key and by no other sites. -/
structure Apart (ss : List (Site find?)) (p : Program) : Prop where
  callees : ss.Pairwise fun s t => s.call.callee = t.call.callee ↔ s.Shares t
  count : p.functions.length = functionsNeeded ss

namespace Apart

theorem empty : Apart ([] : List (Site find?)) .empty where
  callees := List.Pairwise.nil
  count := rfl

variable {s : Site find?} {q : Program}

theorem callees_concat (h : Apart ss p)
    (hs : ∀ t ∈ ss, t.call.callee = s.call.callee ↔ t.Shares s) :
    (ss ++ [s]).Pairwise fun s t => s.call.callee = t.call.callee ↔ s.Shares t := by
  refine List.pairwise_append.2 ⟨h.callees, List.pairwise_singleton _ _, ?_⟩
  intro t ht u hu
  rw [List.mem_singleton.1 hu]
  exact hs t ht

/-- A template that finds its function has an old key. -/
theorem reuse (h : Apart ss p) (hlinked : Linked ss p) (hnext : Linked (ss ++ [s]) p) (hraw : s.isRaw = false)
    (hfound : p.shared? s.base s.body = some s.call.callee) : Apart (ss ++ [s]) p := by
  have hkey : s.key ∈ templateKeys ss := hlinked.mem_templateKeys_iff.2 ⟨_, hfound⟩
  constructor
  · refine h.callees_concat fun t ht => ?_
    exact hnext.callee_eq_iff (List.mem_append_left _ ht) (List.mem_append_right _ List.mem_cons_self) hraw
  · rw [functionsNeeded_concat_template hraw, if_pos hkey, Nat.add_zero]
    exact h.count

/-- A node that adds its function is raw or has a new key, since no earlier site calls the function. -/
theorem add (h : Apart ss p) (hlinked : Linked ss p) (hnext : Linked (ss ++ [s]) q) (hadds : p.Adds q s.function) :
    Apart (ss ++ [s]) q := by
  have hnew : ∀ t ∈ ss, ¬ t.call.callee = s.call.callee := by
    intro t ht he
    have hmem := hlinked.callee_mem ht
    rw [he] at hmem
    exact hadds.fresh hmem
  have hapart : ∀ t ∈ ss, ¬ t.Shares s := by
    intro t ht hshares
    have hiff := hnext.callee_eq_iff (List.mem_append_left _ ht) (List.mem_append_right _ List.mem_cons_self)
      hshares.2.1
    exact hnew t ht (hiff.2 hshares)
  have hlength : q.functions.length = functionsNeeded ss + 1 := by simp [hadds.functions, h.count]
  constructor
  · exact h.callees_concat fun t ht => iff_of_false (hnew t ht) (hapart t ht)
  · rw [hlength]
    cases hraw : s.isRaw with
    | true => rw [functionsNeeded_concat_raw hraw]
    | false =>
      have hkey : s.key ∉ templateKeys ss := by
        intro hm
        obtain ⟨t, ht, htraw, hsame⟩ := mem_templateKeys.1 hm
        exact hapart t ht ⟨htraw, hraw, hsame⟩
      rw [functionsNeeded_concat_template hraw, if_neg hkey]

theorem link (h : Apart ss p) (hlinked : Linked ss p) {o : Occurrence find?} {inner : List Call}
    (hnext : Linked (ss ++ [⟨o, inner, (o.link inner p).1⟩]) (o.link inner p).2) :
    Apart (ss ++ [⟨o, inner, (o.link inner p).1⟩]) (o.link inner p).2 := by
  obtain ⟨-, ⟨hraw, hfound, hsame⟩ | ⟨hadds, -⟩⟩ := o.link_cases inner p
  · rw [hsame] at hnext ⊢
    exact h.reuse hlinked hnext hraw hfound
  · exact h.add hlinked hnext hadds

end Apart

/-- **Sharing is exact.** Two nodes call one function if and only if they are templates that agree on the base name and
on the body, so the function of raw code has no other caller. There are as many functions as nodes with raw code and
keys of templates together. -/
theorem sharing_is_exact {tree : List Node} {calls : List Call} (h : generate find? tree = .ok (calls, p)) :
    ∃ forest : Forest find?, resolve find? tree = .ok forest ∧ forest.emit .empty = (calls, p) ∧
      let sites := forest.sites .empty
      (sites.Pairwise fun s t => s.call.callee = t.call.callee ↔
        s.isRaw = false ∧ t.isRaw = false ∧ s.base = t.base ∧ s.body = t.body) ∧
      p.functions.length =
        (sites.countP fun s => s.isRaw) +
          ((sites.filter fun s => !s.isRaw).map fun s => (s.base, s.body)).toFinset.card := by
  obtain ⟨forest, hresolve, hemit⟩ := generate_eq_ok_iff.1 h
  have hapart : Apart (forest.sites .empty) p :=
    Forest.sites_induction Apart.empty (fun _ h => ⟨h.callees, h.count⟩)
      (fun o inner hlinked hnext h => h.link hlinked hnext) hemit
  refine ⟨forest, hresolve, hemit, hapart.callees.imp fun {s t} hst => ?_, hapart.count⟩
  rw [hst, Site.Shares, Site.key, Site.key, Prod.mk.injEq]

end

/-- A tree with equal codes and equal templates. -/
def repeatingTree : List Node :=
  [codeNode "a();", plainNode "Group" [codeNode "a();"], plainNode "group_1" [], plainNode "Group" [],
    plainNode "group_1" []]

/-- Equal templates share a function, and equal codes do not. -/
theorem equal_codes_stay_apart :
    ∃ (forest : Forest numberedScripts) (calls : List Call) (p : Program),
      resolve numberedScripts repeatingTree = .ok forest ∧ forest.emit .empty = (calls, p) ∧
      calls.map Call.callee = ["source_1", "group", "group_1", "group_3", "group_1"] ∧
      let sites := forest.sites .empty
      (sites.Pairwise fun s t => s.call.callee = t.call.callee ↔
        s.isRaw = false ∧ t.isRaw = false ∧ s.base = t.base ∧ s.body = t.body) ∧
      (sites.countP fun s => s.isRaw) +
        ((sites.filter fun s => !s.isRaw).map fun s => (s.base, s.body)).toFinset.card = 5 := by
  have hresult : (generate numberedScripts repeatingTree).map (fun r => (r.1.map Call.callee, r.2.functions.length)) =
      .ok (["source_1", "group", "group_1", "group_3", "group_1"], 5) := by decide +kernel
  obtain ⟨⟨calls, p⟩, hgenerate, hcalls⟩ := map_eq_ok_iff.1 hresult
  obtain ⟨hcallees, hlength⟩ := Prod.mk.inj hcalls
  obtain ⟨forest, hresolve, hemit, hpairs, hcount⟩ := sharing_is_exact hgenerate
  exact ⟨forest, calls, p, hresolve, hemit, hcallees, hpairs, hcount.symm.trans hlength⟩

end ScriptRunner.Script
