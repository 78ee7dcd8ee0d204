import ScriptRunner.Script.Definition

/-!
# Titles in several languages

The table holds texts by language and key. The titles of a definition go in under its own title; of two texts for one
language and key the later one counts.
-/

namespace ScriptRunner.Script

structure TitleTable where
  entries : List ((String × String) × String)

namespace TitleTable

def empty : TitleTable := ⟨[]⟩

def insert (t : TitleTable) (lang key text : String) : TitleTable :=
  ⟨t.entries.filter (fun e => e.1 != (lang, key)) ++ [((lang, key), text)]⟩

def find? (t : TitleTable) (lang key : String) : Option String :=
  (t.entries.find? fun e => e.1 == (lang, key)).map Prod.snd

def size (t : TitleTable) : Nat := t.entries.length

/-- Adds the titles of a definition. -/
def addDefinition (t : TitleTable) (d : Definition) : TitleTable :=
  d.titles.entries.foldl (fun t e => t.insert e.1 d.displayTitle e.2) t

def ofDefinitions (ds : List Definition) : TitleTable := ds.foldl addDefinition empty

/-- The text in the language, else in the default language, else the key itself. -/
def localize (t : TitleTable) (defaultLang lang key : String) : String :=
  (t.find? lang key <|> t.find? defaultLang key).getD key

end TitleTable

end ScriptRunner.Script
