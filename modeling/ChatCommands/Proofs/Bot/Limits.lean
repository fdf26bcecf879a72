import ChatCommands.Proofs.Bot.Delivery
import ChatCommands.Proofs.Bot.Pages

/-!
How long the texts of an embed can be, and that a list shows no links.

A link is broken by a word that begins as the link does, so that no new one can arise where the word
meets what stands around it, or where the text is cut. The name of a field is cut to make room for
the id behind it; an id that leaves no room is shown all the same.
-/

namespace ChatCommands

namespace Text

section Replacing

variable {x : Char} {u v : Text}

/-- A text without the first character of the replaced word begins a replaced text only where it
began the text before. -/
theorem prefix_of_replace {w t : Text} (absent : x ∉ w)
    (h : w <+: replace (x :: u) (x :: v) t) : w <+: t := by
  induction t generalizing w with
  | nil =>
    rw [replace] at h
    exact h
  | cons c rest ih =>
    rw [replace] at h
    cases w with
    | nil => exact List.nil_prefix
    | cons d w =>
      split at h
      · rw [List.cons_append, List.cons_prefix_cons] at h
        exact absurd (h.1 ▸ List.mem_cons_self) absent
      · rw [List.cons_prefix_cons] at h ⊢
        exact ⟨h.1, ih (fun hx => absent (List.mem_cons_of_mem d hx)) h.2⟩

theorem infix_of_append {t rest : Text} (absent : x ∉ t) (h : x :: u <:+: t ++ rest) :
    x :: u <:+: rest := by
  induction t with
  | nil => exact h
  | cons c t ih =>
    rw [List.cons_append, List.infix_cons_iff] at h
    rw [List.mem_cons, not_or] at absent
    rcases h with here | later
    · exact absurd (List.cons_prefix_cons.mp here).1 absent.1
    · exact ih absent.2 later

/-- A word is gone from a text where it was replaced by one that begins with the same character,
which neither has again, and then goes on in another way. -/
theorem not_infix_replace (once : x ∉ u) (once' : x ∉ v) (forks : ∀ s, ¬ u <+: v ++ s) (t : Text) :
    ¬ x :: u <:+: replace (x :: u) (x :: v) t := by
  fun_induction replace (x :: u) (x :: v) t with
  | case1 => simp
  | case2 c rest _ ih =>
    rw [List.cons_append, List.infix_cons_iff, List.cons_prefix_cons]
    rintro (⟨-, here⟩ | later)
    · exact forks _ here
    · exact ih (infix_of_append once' later)
  | case3 c rest unlike ih =>
    rw [List.infix_cons_iff, List.cons_prefix_cons]
    rintro (⟨rfl, here⟩ | later)
    · have before := prefix_of_replace once here
      simp [List.isPrefixOf_iff_prefix, before] at unlike
    · exact ih later

end Replacing

theorem length_truncate_le (t : Text) {limit : Nat} (room : 3 ≤ limit) :
    (truncate t limit).length ≤ limit :=
  Int.ofNat_le.mp (length_truncate t (Int.ofNat_le.mpr room))

theorem isPrefix_takeSigned (t : Text) (n : Int) : t.takeSigned n <+: t := by
  unfold takeSigned
  split <;> exact List.take_prefix _ _

/-- Neither a cut nor the dots behind it make a word whose last character is no dot. -/
theorem not_infix_truncate {w t : Text} {c : Char} (other : c ≠ '.')
    (absent : ¬ w ++ [c] <:+: t) (limit : Int) : ¬ w ++ [c] <:+: truncate t limit := by
  unfold truncate
  split
  · exact absent
  · rintro ⟨before, behind, whole⟩
    have within {t' : Text} (h : w ++ [c] <:+: t') (front : t' <+: t) : False :=
      absent (h.trans front.isInfix)
    rcases List.append_eq_append_iff.mp whole with ⟨more, cut, -⟩ | ⟨more, word, dots⟩
    · exact within ⟨before, more, cut.symm⟩ (isPrefix_takeSigned t _)
    · rcases List.eq_nil_or_concat more with rfl | ⟨front, d, rfl⟩
      · rw [List.append_nil] at word
        exact within ⟨before, [], by rw [List.append_nil, word]⟩ (isPrefix_takeSigned t _)
      · rw [List.concat_eq_append, ← List.append_assoc, ← List.append_assoc] at word
        have last : c = d := List.singleton_inj.mp (List.append_inj' word rfl).2
        have dot : c ∈ "...".toList := by
          rw [dots, last]
          simp
        exact absurd dot (by simpa using other)

end Text

/-! ### Fields -/

namespace Embed

theorem length_suffix (c : Command) :
    (" (".toList ++ c.id ++ [')']).length = c.id.length + 3 := by
  simp

theorem defang_unlinked (t : Text) : ¬ "https://".toList <:+: defang t :=
  Text.not_infix_replace (x := 'h') (u := "ttps://".toList) (v := "tt-ps://".toList) (by decide)
    (by decide) (fun s => by simp) t

/-- What the field of a command shows in a list. The name has room for an id of 253 characters. -/
structure Shows (c : Command) (f : EmbedField) : Prop where
  suffix : " (".toList ++ c.id ++ [')'] <:+ f.name
  room : f.name.length ≤ 256 ↔ c.id.length ≤ 253
  some : 1 ≤ f.value.length
  short : f.value.length ≤ 1024
  unlinked : ¬ "https://".toList <:+: f.value

theorem shows_commandField (c : Command) : Shows c (commandField c) := by
  have name : (commandField c).name =
      c.name.takeSigned (256 - (c.id.length + 3 : Nat)) ++ (" (".toList ++ c.id ++ [')']) := by
    rw [← length_suffix]
    rfl
  have value : (commandField c).value =
      if (Text.truncate (defang c.response) 1024).isEmpty then ['-']
      else Text.truncate (defang c.response) 1024 := rfl
  have short : (Text.truncate (defang c.response) 1024).length ≤ 1024 :=
    Text.length_truncate_le _ (by decide)
  have unlinked : ¬ "https://".toList <:+: Text.truncate (defang c.response) 1024 :=
    Text.not_infix_truncate (w := "https:/".toList) (by decide) (defang_unlinked c.response) 1024
  constructor
  · rw [name]
    exact List.suffix_append _ _
  · rw [name, List.length_append, length_suffix, Text.takeSigned]
    split
    · have cut := List.length_take_le (256 - (c.id.length + 3 : Nat) : Int).toNat c.name
      omega
    · omega
  · rw [value]
    split
    · exact Nat.le_refl _
    · rename_i some
      exact List.length_pos_iff.mpr (by simpa using some)
  · rw [value]
    split
    · decide
    · omega
  · rw [value]
    split
    · decide
    · exact unlinked

theorem length_change (title : Text) (c : Command) (verb : Text) (color : Option Int) :
    (change title c verb color).description.length ≤ 4096 := by
  have room : 3 ≤ descriptionLimit := by decide
  dsimp only [change]
  exact Text.length_truncate_le _ room

theorem length_error (message : Text) : (error message).description.length ≤ 4096 := by
  have short : (Text.truncate message errorLimit).length ≤ 3900 :=
    Text.length_truncate_le _ (by decide)
  dsimp only [error]
  generalize Text.truncate message errorLimit = t at short ⊢
  rw [List.length_append, List.length_append]
  simp
  omega

theorem mem_list_fields {s : Contents} {server page : Int} {f : EmbedField}
    (hf : f ∈ (list (s.list server) page).fields) :
    ∃ c ∈ s.commands, c.server = server ∧ commandField c = f := by
  obtain ⟨c, hc, made⟩ := List.mem_map.mp hf
  have listed : c ∈ s.list server := List.mem_of_mem_drop (List.mem_of_mem_take hc)
  obtain ⟨stored, own⟩ := List.mem_filter.mp ((s.list_perm server).mem_iff.mp listed)
  exact ⟨c, stored, by simpa using own, made⟩

/-- On every page of every list the texts of a field keep to their limits, and the id of its command
is shown whole; only an id that leaves no room for its brackets makes the name too long. A change
and an error fit whatever they tell. -/
theorem texts_limited (s : Contents) (server page : Int) :
    (∀ f ∈ (list (s.list server) page).fields, ∃ c ∈ s.commands, c.server = server ∧ Shows c f) ∧
    (∀ title c verb color, (change title c verb color).description.length ≤ 4096) ∧
    ∀ message, (error message).description.length ≤ 4096 := by
  refine ⟨fun f hf => ?_, length_change, length_error⟩
  obtain ⟨c, stored, own, rfl⟩ := mem_list_fields hf
  exact ⟨c, stored, own, shows_commandField c⟩

/-- A file with an id of 254 characters is loaded, and the name of its field is too long. -/
theorem long_id_overflows :
    let file := "\x7b\"commands\": [\x7b\"id\": \"".toList ++ List.replicate 254 'i' ++
      "\", \"guild_id\": 7, \"name\": \"greet\", \"response\": \"hi\"\x7d]\x7d".toList
    ∃ store warnings, Store.load (some file) = .ok (store, warnings) ∧
      ∃ f ∈ (list (store.contents.list 7) 1).fields, 256 < f.name.length := by
  intro file
  let c : Command := ⟨List.replicate 254 'i', 7, "greet".toList, "hi".toList, none, none, none⟩
  let s : Contents := ⟨[c], []⟩
  have read : Contents.ofFile (some file) = .ok (s, []) :=
    toOption_eq_some_iff.mp (by decide +kernel)
  have single : (s.list 7).length = 1 := (s.list_perm 7).length_eq
  have nonempty : s.list 7 ≠ [] := fun none => by simp [none] at single
  have small : (s.list 7).length < 2 ^ 53 := by
    rw [single]
    decide
  obtain ⟨_, _, tiles⟩ := exists_paged small
  have shown : (list (s.list 7) 1).fields ≠ [] := mt List.map_eq_nil_iff.mp (tiles.filled nonempty 1)
  obtain ⟨f, hf⟩ := List.exists_mem_of_ne_nil _ shown
  obtain ⟨d, hd, -, rfl⟩ := mem_list_fields hf
  refine ⟨⟨s, some file⟩, [], by rw [Store.load, read, Except.map], _, hf, ?_⟩
  rw [List.mem_singleton.mp hd]
  decide +kernel

end Embed

end ChatCommands
