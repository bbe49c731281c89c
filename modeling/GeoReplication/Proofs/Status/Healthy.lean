import GeoReplication.Proofs.Status.AddsUp
import GeoReplication.Proofs.Status.Markup
import GeoReplication.Proofs.Text.Cuts

/-!
# Proofs/Status/Healthy — a status says what the check of the installation found

    failures, joined ──▸ first line ──▸ trimmed ──▸ escaped

Health is told from the first line alone.  That is enough: whatever texts a diagnostic embeds, it
begins with a letter of its own (`achieves_failures`), so the line is not empty where there is
something to say (`line_eq_nil_iff`), and what markup was in it can be put back
(`health_tells_failures`).
-/

namespace GeoReplication

open Program

namespace Text

variable {c : Char} {rest text : List Char} {s : String}

/-- The text begins with a character that is not blank. -/
def Speaks (s : String) : Prop := s.toList.head?.any (fun c => !isBlank c) = true

instance (s : String) : Decidable (Speaks s) :=
  inferInstanceAs (Decidable (s.toList.head?.any (fun c => !isBlank c) = true))

theorem speaks_iff : Speaks s ↔ ∃ c rest, s.toList = c :: rest ∧ isBlank c = false := by
  rw [Speaks]
  cases s.toList <;> simp

theorem speaks_append (h : Speaks s) (t : String) : Speaks (s ++ t) := by
  obtain ⟨c, rest, hs, hc⟩ := speaks_iff.mp h
  exact speaks_iff.mpr ⟨c, rest ++ t.toList, by rw [String.toList_append, hs, List.cons_append], hc⟩

/-! ## The first line -/

theorem notMem_firstLine (text : List Char) : '\n' ∉ firstLine text := by
  rw [firstLine]
  split
  · next hnone => exact notMem_of_splitOnce?_eq_none hnone
  · next line after hsome =>
    have hline := notMem_of_splitOnce? hsome
    split
    · next rest hreverse =>
      have hsub : ∀ c ∈ rest.reverse, c ∈ line := fun c hc => by
        rw [← List.mem_reverse, hreverse]
        exact List.mem_cons_of_mem _ (List.mem_reverse.mp hc)
      exact fun hmem => hline (hsub _ hmem)
    · exact hline

/-- A first line begins where its text does, unless the text begins with a blank. -/
theorem exists_firstLine_cons (hc : isBlank c = false) (rest : List Char) :
    ∃ rest', firstLine (c :: rest) = c :: rest' := by
  -- a line feed and a carriage return are blanks, so neither ends the line before `c`
  have hhead {line : List Char} {d : Char} {after : List Char} (hd : isBlank d = true)
      (h : c :: rest = line ++ d :: after) : ∃ rest', line = c :: rest' := by
    cases line with
    | nil =>
      obtain ⟨rfl, -⟩ := List.cons.inj h
      exact absurd (hc.symm.trans hd) Bool.false_ne_true
    | cons e line => exact ⟨line, by rw [(List.cons.inj h).1]⟩
  rw [firstLine]
  split
  · exact ⟨rest, rfl⟩
  · next line after hsome =>
    have hcut : c :: rest = line ++ '\n' :: after := by
      simpa only [List.append_assoc, List.singleton_append] using append_of_splitOnce? hsome
    split
    · next back hreverse =>
      have hline : line = back.reverse ++ ['\r'] := by
        rw [← line.reverse_reverse, hreverse, List.reverse_cons]
      have hback : c :: rest = back.reverse ++ '\r' :: '\n' :: after := by
        rw [hcut, hline, List.append_assoc, List.singleton_append]
      exact hhead (d := '\r') (by decide) hback
    · exact hhead (d := '\n') (by decide) hcut

theorem notMem_trimBlanks (h : c ∉ text) : c ∉ trimBlanks text := by
  obtain ⟨front, back, htext, -⟩ := exists_trimBoth isBlank text
  intro hmem
  rw [htext] at h
  exact h (List.mem_append_right _ (List.mem_append_left _ hmem))

/-- A text that speaks does so in its first line. -/
theorem trimBlanks_firstLine_ne_nil (h : Speaks s) : trimBlanks (firstLine s.toList) ≠ [] := by
  obtain ⟨c, rest, hs, hc⟩ := speaks_iff.mp h
  obtain ⟨rest', hline⟩ := exists_firstLine_cons hc rest
  rw [hs, hline, trimBlanks, trimBoth, List.dropWhile_cons_of_neg (by simp [hc]), trimEnd_cons hc]
  exact List.cons_ne_nil _ _

theorem speaks_joinWith (mark : String) :
    ∀ {parts : List String}, parts ≠ [] → (∀ d ∈ parts, Speaks d) → Speaks (joinWith mark parts)
  | [], hne, _ => absurd rfl hne
  | [part], _, h => h part List.mem_cons_self
  | part :: _ :: _, _, h => by
      rw [joinWith]
      · exact speaks_append (speaks_append (h part List.mem_cons_self) mark) _
      · exact fun h => by cases h

/-- **Joined texts that speak have an empty first line only if there is none of them.** -/
theorem line_eq_nil_iff {parts : List String} (h : ∀ d ∈ parts, Speaks d) :
    trimBlanks (firstLine (joinWith "\n" parts).toList) = [] ↔ parts = [] := by
  constructor
  · intro hline
    by_contra hne
    exact trimBlanks_firstLine_ne_nil (speaks_joinWith "\n" hne h) hline
  · rintro rfl
    decide

end Text

/-! ## Diagnostics -/

namespace Health

open Text

theorem speaks_nodeFailures (c : Config) (n : Node) : ∀ d ∈ nodeFailures c n, Speaks d := by
  have hdatabase : Speaks "Geo database is not configured" := by decide
  have hdisabled : Speaks "Geo node is disabled" := by decide
  rw [nodeFailures]
  split_ifs <;> simp [hdatabase, hdisabled]

variable {P : Site → Effect → Prop} {s : Site}

theorem achieves_asking {c : Call} (hc : c.writes = []) :
    Achieves P (Program.call c).attempt s fun _ _ => True :=
  (looks_call hc).achieves_attempt (I := fun _ => True) trivial

theorem achieves_logFailures (n : Node) :
    Achieves P (logFailures n) s fun found _ => ∀ d ∈ found, Speaks d := by
  have hcursor : Speaks "Event log cursor (" := by decide
  have hread : Speaks "Could not read the event log: " := by decide
  refine (achieves_asking rfl).bind fun cursor s₁ _ => ?_
  refine (achieves_asking rfl).bind fun last s₂ _ => ?_
  split
  · dsimp only
    split
    · refine .pure (List.forall_mem_singleton.mpr ?_)
      exact speaks_append (speaks_append (speaks_append (speaks_append hcursor _) _) _) _
    · exact .pure (List.forall_mem_nil _)
  · exact .pure (List.forall_mem_singleton.mpr (speaks_append hread _))
  · exact .pure (List.forall_mem_singleton.mpr (speaks_append hread _))
  · exact .pure (List.forall_mem_nil _)

/-- **Every diagnostic begins with a letter**, whatever texts it embeds; and the check always comes
to an end. -/
theorem achieves_failures (c : Config) (nodeUrl : String) :
    Achieves P (failures c nodeUrl) s fun found _ => ∀ d ∈ found, Speaks d := by
  have hdatabase : Speaks "Database is not reachable: " := by decide
  have hlookUp : Speaks "Could not look up the current node: " := by decide
  have hunknown : Speaks "This installation (" := by decide
  refine (achieves_asking rfl).bind fun ping s₁ _ => ?_
  split
  · exact .pure (List.forall_mem_singleton.mpr (speaks_append hdatabase _))
  · refine (achieves_asking rfl).bind fun node s₂ _ => ?_
    split
    · exact .pure (List.forall_mem_singleton.mpr (speaks_append hlookUp _))
    · exact .pure (List.forall_mem_singleton.mpr (speaks_append (speaks_append hunknown _) _))
    · next n =>
      refine (achieves_logFailures n).bind fun found s₃ hfound => .pure ?_
      exact List.forall_mem_append.mpr ⟨speaks_nodeFailures c n, hfound⟩

end Health

/-! ## The status -/

namespace StatusReport

variable {P : Site → Effect → Prop} {s s' : Site} {n : Node} {f : Features}

/-- The line that tells of what was found. -/
def line (found : List String) : List Char :=
  Text.trimBlanks (Text.firstLine (Text.joinWith "\n" found).toList)

theorem run_health {c : Config} {nodeUrl : String} {found : List String}
    (h : (Health.failures c nodeUrl).run s = (.ok found, s')) :
    (health (.localTo c nodeUrl)).run s =
      (.ok ((line found).isEmpty, escape (line found)), s') := by
  have hprocess : ((HealthCheck.localTo c nodeUrl).process ["geo"]).run s =
      (.ok (Text.joinWith "\n" found), s') := by
    simp [HealthCheck.localTo, Health.process, run_bind, h]
  have hcaught : ((HealthCheck.localTo c nodeUrl).process ["geo"]).attempt.run s =
      (.ok (.ok (Text.joinWith "\n" found)), s') := by
    rw [run_attempt, hprocess]
  rw [health, run_bind_ok hcaught]
  rfl

/-- The rest of the report leaves health as it was found. -/
theorem achieves_reportOn (health : Bool × String) (lag : Option Int) :
    Achieves P (reportOn f n health lag) s fun st _ =>
      st.healthy = health.1 ∧ st.health = health.2 := by
  have hask {c : Call} (hc : c.writes = []) (d : c.Reply) (s : Site) :
      Achieves P (orDefault d (call c)) s fun _ _ => True :=
    (achieves_orDefault (looks_call hc) d rfl).imp fun _ _ _ => trivial
  have hrepositories (s : Site) :
      Achieves P (repositories (.of n f.namespaceRestrictions)) s fun _ _ => True :=
    (hask rfl 0 s).bind fun _ s _ => (hask rfl 0 s).bind fun _ s _ =>
      (hask rfl 0 s).bind fun _ _ _ => .pure trivial
  have hfiles (c : FileClass) (s : Site) :
      Achieves P (files (.of n f.namespaceRestrictions) c) s fun _ _ => True :=
    (hask (c := .countFiles _ c) rfl ⟨0, 0, 0⟩ s).bind fun _ _ _ => .pure trivial
  refine (hrepositories s).bind fun repositories s₁ _ => ?_
  refine (hfiles .lfsObjects s₁).bind fun lfsObjects s₂ _ => ?_
  refine (hfiles .attachments s₂).bind fun attachments s₃ _ => ?_
  refine (hask (c := .lastEvent) rfl none s₃).bind fun last s₄ _ => ?_
  dsimp only
  split
  · refine (hask (c := .getCursor n.id) rfl none s₄).bind fun cursor s₅ _ => ?_
    cases cursor with
    | none => exact .pure ⟨rfl, rfl⟩
    | some cursor =>
      exact (hask (c := .getEvent cursor.eventId) rfl none s₅).bind fun _ _ _ => .pure ⟨rfl, rfl⟩
  · exact .pure ⟨rfl, rfl⟩

/-- **Health is told truthfully, and without markup.**  At any site, whatever fails there and with
whatever texts, the check of the installation comes to an end and so does the status of a secondary.
The status is healthy exactly if nothing was found, and then says nothing.  Otherwise it says one
line that is not empty and has no markup; with its entities replaced by what they stand for, that is
the first line of what was found, trimmed. -/
theorem health_tells_failures (hn : n.isSecondary = true) (c : Config) (nodeUrl : String)
    (f : Features) (s : Site) : ∃ found st,
    ((Health.failures c nodeUrl).run s).1 = .ok found ∧
    ((compute (.localTo c nodeUrl) f n).run s).1 = .ok st ∧
    (st.healthy = true ↔ found = []) ∧
    (found = [] → st.health = "") ∧
    (found ≠ [] → st.health ≠ "" ∧ '\n' ∉ st.health.toList ∧ IsPlain st.health.toList ∧
      unescape st.health.toList =
        Text.trimBlanks (Text.firstLine (Text.joinWith "\n" found).toList)) := by
  have hall {α : Type} (t : Program α) (s : Site) : t.Throughout (fun _ _ => True) s :=
    throughout_of fun _ _ => trivial
  obtain ⟨found, s₁, hfound, hspeaks⟩ := Health.achieves_failures c nodeUrl (hall _ s)
  have hcheckup : (checkup (.localTo c nodeUrl) n).run s =
      (.ok ((line found).isEmpty, escape (line found)), s₁) := by
    rw [checkup, if_pos hn, run_health hfound]
  have hreport : Achieves (fun _ _ => True)
      (delay (.localTo c nodeUrl) n >>= fun lag =>
        reportOn f n ((line found).isEmpty, escape (line found)) lag) s₁ fun st _ =>
      st.healthy = (line found).isEmpty ∧ st.health = escape (line found) :=
    (achieves_delay (HealthCheck.looks_localTo c nodeUrl) rfl).bind fun lag _ _ =>
      achieves_reportOn _ lag
  obtain ⟨st, s₂, hrun, hhealthy, hhealth⟩ := hreport (hall _ s₁)
  have hempty : line found = [] ↔ found = [] := Text.line_eq_nil_iff hspeaks
  have hback : unescape st.health.toList = line found := by rw [hhealth, unescape_escape]
  refine ⟨found, st, congrArg Prod.fst hfound, ?_, ?_, fun hnone => ?_,
    fun hsome => ⟨?_, ?_, ?_, hback⟩⟩
  · rw [compute_eq, run_bind_ok hcheckup, hrun]
  · rw [hhealthy, List.isEmpty_iff, hempty]
  · rw [hhealth, hempty.mpr hnone]
    rfl
  · intro hnothing
    rw [hnothing] at hback
    exact hsome (hempty.mp hback.symm)
  · rw [hhealth]
    exact notMem_escape (Text.notMem_trimBlanks (Text.notMem_firstLine _))
  · rw [hhealth]
    exact isPlain_escape _

/-- A look-up that fails with markup and a line break in its text. -/
def brokenLookUp : Site :=
  { Site.start .epoch mixedStore [] with
    faults := [⟨.findNodeByUrl, 0, some 1, .conflict "\"a\" & <b>\r\nc"⟩] }

theorem health_tells_failures_markup : ∃ st,
    ((compute (.localTo .standard "http://secondary/") .all groupNode).run brokenLookUp).1 =
      .ok st ∧
    st.healthy = false ∧ '\n' ∉ st.health.toList ∧ IsPlain st.health.toList ∧
    unescape st.health.toList =
      "Could not look up the current node: conflict: \"a\" & <b>".toList := by
  obtain ⟨found, st, hfound, hst, hhealthy, -, htells⟩ :=
    health_tells_failures (n := groupNode) (by decide) .standard "http://secondary/" .all
      brokenLookUp
  have hrun : ((Health.failures .standard "http://secondary/").run brokenLookUp).1 =
      .ok ["Could not look up the current node: conflict: \"a\" & <b>\r\nc"] := by decide +kernel
  obtain rfl := Except.ok.inj (hfound.symm.trans hrun)
  obtain ⟨-, hline, hplain, hback⟩ := htells (List.cons_ne_nil _ _)
  refine ⟨st, hst, ?_, hline, hplain, hback.trans (by decide +kernel)⟩
  exact Bool.eq_false_iff.mpr fun h => List.cons_ne_nil _ _ (hhealthy.mp h)

end StatusReport

end GeoReplication
