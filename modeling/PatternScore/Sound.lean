/-!
# Sounds

The names of the sounds that pattern programs can ask for, and the sound of each instrument number
of General MIDI.
-/

namespace PatternScore.Sound

/-- The sound of a voice that names no other. -/
def default : String := "gm_piano"

/-- Every sound that the pattern language knows. -/
def known : List String := [
  "brown", "bytebeat", "crackle", "gm_accordion", "gm_acoustic_bass", "gm_acoustic_guitar_nylon",
  "gm_acoustic_guitar_steel", "gm_agogo", "gm_alto_sax", "gm_applause", "gm_bagpipe",
  "gm_bandoneon", "gm_banjo", "gm_baritone_sax", "gm_bassoon", "gm_bird_tweet", "gm_blown_bottle",
  "gm_brass_section", "gm_breath_noise", "gm_celesta", "gm_cello", "gm_choir_aahs",
  "gm_church_organ", "gm_clarinet", "gm_clavinet", "gm_contrabass", "gm_distortion_guitar",
  "gm_drawbar_organ", "gm_dulcimer", "gm_electric_bass_finger", "gm_electric_bass_pick",
  "gm_electric_guitar_clean", "gm_electric_guitar_jazz", "gm_electric_guitar_muted",
  "gm_english_horn", "gm_epiano1", "gm_epiano2", "gm_fiddle", "gm_flute", "gm_french_horn",
  "gm_fretless_bass", "gm_fx_atmosphere", "gm_fx_brightness", "gm_fx_crystal", "gm_fx_echoes",
  "gm_fx_goblins", "gm_fx_rain", "gm_fx_sci_fi", "gm_fx_soundtrack", "gm_glockenspiel",
  "gm_guitar_fret_noise", "gm_guitar_harmonics", "gm_gunshot", "gm_harmonica", "gm_harpsichord",
  "gm_helicopter", "gm_kalimba", "gm_koto", "gm_lead_1_square", "gm_lead_2_sawtooth",
  "gm_lead_3_calliope", "gm_lead_4_chiff", "gm_lead_5_charang", "gm_lead_6_voice",
  "gm_lead_7_fifths", "gm_lead_8_bass_lead", "gm_marimba", "gm_melodic_tom", "gm_music_box",
  "gm_muted_trumpet", "gm_oboe", "gm_ocarina", "gm_orchestra_hit", "gm_orchestral_harp",
  "gm_overdriven_guitar", "gm_pad_bowed", "gm_pad_choir", "gm_pad_halo", "gm_pad_metallic",
  "gm_pad_new_age", "gm_pad_poly", "gm_pad_sweep", "gm_pad_warm", "gm_pan_flute",
  "gm_percussive_organ", "gm_piano", "gm_piccolo", "gm_pizzicato_strings", "gm_recorder",
  "gm_reed_organ", "gm_reverse_cymbal", "gm_rock_organ", "gm_seashore", "gm_shakuhachi",
  "gm_shamisen", "gm_shanai", "gm_sitar", "gm_slap_bass_1", "gm_slap_bass_2", "gm_soprano_sax",
  "gm_steel_drums", "gm_string_ensemble_1", "gm_string_ensemble_2", "gm_synth_bass_1",
  "gm_synth_bass_2", "gm_synth_brass_1", "gm_synth_brass_2", "gm_synth_choir", "gm_synth_drum",
  "gm_synth_strings_1", "gm_synth_strings_2", "gm_taiko_drum", "gm_telephone", "gm_tenor_sax",
  "gm_timpani", "gm_tinkle_bell", "gm_tremolo_strings", "gm_trombone", "gm_trumpet", "gm_tuba",
  "gm_tubular_bells", "gm_vibraphone", "gm_viola", "gm_violin", "gm_voice_oohs", "gm_whistle",
  "gm_woodblock", "gm_xylophone", "pink", "pulse", "saw", "sawtooth", "sbd", "sin", "sine", "sqr",
  "square", "supersaw", "tri", "triangle", "user", "white", "z_noise", "z_sawtooth", "z_sine",
  "z_square", "z_tan", "z_triangle", "zzfx"]

/-- The sounds of the General MIDI instruments, by number from zero: sixteen families of eight. -/
def generalMidi : List String := [
  -- Piano
  "gm_piano", "gm_piano", "gm_piano", "gm_piano", "gm_epiano1", "gm_epiano2", "gm_harpsichord",
  "gm_clavinet",
  -- Chromatic percussion
  "gm_celesta", "gm_glockenspiel", "gm_music_box", "gm_vibraphone", "gm_marimba", "gm_xylophone",
  "gm_tubular_bells", "gm_dulcimer",
  -- Organ
  "gm_drawbar_organ", "gm_percussive_organ", "gm_rock_organ", "gm_church_organ", "gm_reed_organ",
  "gm_accordion", "gm_harmonica", "gm_bandoneon",
  -- Guitar
  "gm_acoustic_guitar_nylon", "gm_acoustic_guitar_steel", "gm_electric_guitar_jazz",
  "gm_electric_guitar_clean", "gm_electric_guitar_muted", "gm_overdriven_guitar",
  "gm_distortion_guitar", "gm_guitar_harmonics",
  -- Bass
  "gm_acoustic_bass", "gm_electric_bass_finger", "gm_electric_bass_pick", "gm_fretless_bass",
  "gm_slap_bass_1", "gm_slap_bass_2", "gm_synth_bass_1", "gm_synth_bass_2",
  -- Strings
  "gm_violin", "gm_viola", "gm_cello", "gm_contrabass", "gm_tremolo_strings",
  "gm_pizzicato_strings", "gm_orchestral_harp", "gm_timpani",
  -- Ensemble
  "gm_string_ensemble_1", "gm_string_ensemble_2", "gm_synth_strings_1", "gm_synth_strings_2",
  "gm_choir_aahs", "gm_voice_oohs", "gm_synth_choir", "gm_orchestra_hit",
  -- Brass
  "gm_trumpet", "gm_trombone", "gm_tuba", "gm_muted_trumpet", "gm_french_horn",
  "gm_brass_section", "gm_synth_brass_1", "gm_synth_brass_2",
  -- Reed
  "gm_soprano_sax", "gm_alto_sax", "gm_tenor_sax", "gm_baritone_sax", "gm_oboe",
  "gm_english_horn", "gm_bassoon", "gm_clarinet",
  -- Pipe
  "gm_piccolo", "gm_flute", "gm_recorder", "gm_pan_flute", "gm_blown_bottle", "gm_shakuhachi",
  "gm_whistle", "gm_ocarina",
  -- Synth lead
  "gm_lead_1_square", "gm_lead_2_sawtooth", "gm_lead_3_calliope", "gm_lead_4_chiff",
  "gm_lead_5_charang", "gm_lead_6_voice", "gm_lead_7_fifths", "gm_lead_8_bass_lead",
  -- Synth pad
  "gm_pad_new_age", "gm_pad_warm", "gm_pad_poly", "gm_pad_choir", "gm_pad_bowed",
  "gm_pad_metallic", "gm_pad_halo", "gm_pad_sweep",
  -- Synth effects
  "gm_fx_rain", "gm_fx_soundtrack", "gm_fx_crystal", "gm_fx_atmosphere", "gm_fx_brightness",
  "gm_fx_goblins", "gm_fx_echoes", "gm_fx_sci_fi",
  -- Ethnic
  "gm_sitar", "gm_banjo", "gm_shamisen", "gm_koto", "gm_kalimba", "gm_bagpipe", "gm_fiddle",
  "gm_shanai",
  -- Percussive
  "gm_tinkle_bell", "gm_agogo", "gm_steel_drums", "gm_woodblock", "gm_taiko_drum",
  "gm_melodic_tom", "gm_synth_drum", "gm_reverse_cymbal",
  -- Sound effects
  "gm_guitar_fret_noise", "gm_breath_noise", "gm_seashore", "gm_bird_tweet", "gm_telephone",
  "gm_helicopter", "gm_applause", "gm_gunshot"]

/-- The pattern language knows a sound of this name. -/
def isKnown (name : String) : Bool :=
  known.contains name

/-- The sound of an instrument number, or the default sound if there is no such instrument. -/
def ofProgram : Option Int → String
  | some n => if 0 ≤ n then generalMidi.getD n.toNat default else default
  | none => default

end PatternScore.Sound
