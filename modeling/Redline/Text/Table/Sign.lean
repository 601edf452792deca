/-!
# Names of signs

The names under which messages show the common pictographs.
-/

namespace Redline.Text.Table

/-- Signs by their names. -/
def signs : List (String × Char) := [
  ("+1", '👍'), ("-1", '👎'), ("100", '💯'), ("1234", '🔢'), ("abc", '🔤'), ("alarm_clock", '⏰'),
  ("alien", '👽'), ("ambulance", '🚑'), ("anchor", '⚓'), ("anger", '💢'), ("angry", '😠'),
  ("apple", '🍎'), ("arrow_down", '⬇'), ("arrow_left", '⬅'), ("arrow_right", '➡'),
  ("arrow_up", '⬆'), ("art", '🎨'), ("baby", '👶'), ("bee", '🐝'), ("beer", '🍺'), ("bell", '🔔'),
  ("bomb", '💣'), ("book", '📖'), ("bookmark", '🔖'), ("books", '📚'), ("boom", '💥'),
  ("broken_heart", '💔'), ("bug", '🐛'), ("bulb", '💡'), ("cake", '🍰'), ("calendar", '📆'),
  ("camera", '📷'), ("car", '🚗'), ("cat", '🐱'), ("check_mark", '✔'), ("check_mark_button", '✅'),
  ("clap", '👏'), ("clipboard", '📋'), ("cloud", '☁'), ("coffee", '☕'), ("collision", '💥'),
  ("computer", '💻'), ("confetti_ball", '🎊'), ("construction", '🚧'), ("cool", '🆒'),
  ("copyright", '©'), ("cow", '🐮'), ("credit_card", '💳'), ("cross_mark", '❌'),
  ("cross_mark_button", '❎'), ("crown", '👑'), ("cry", '😢'), ("dart", '🎯'), ("dizzy", '💫'),
  ("dog", '🐶'), ("door", '🚪'), ("egg", '🥚'), ("email", '📧'), ("exclamation", '❗'), ("eyes", '👀'),
  ("file_folder", '📁'), ("fire", '🔥'), ("fish", '🐟'), ("flashlight", '🔦'), ("floppy_disk", '💾'),
  ("flushed", '😳'), ("fox_face", '🦊'), ("free", '🆓'), ("frog", '🐸'), ("gear", '⚙'), ("gem", '💎'),
  ("ghost", '👻'), ("gift", '🎁'), ("globe_with_meridians", '🌐'), ("green_apple", '🍏'),
  ("green_heart", '💚'), ("grimacing", '😬'), ("grin", '😁'), ("grinning", '😀'),
  ("grinning_face", '😀'), ("gun", '🔫'), ("hammer", '🔨'), ("hatching_chick", '🐣'),
  ("headphones", '🎧'), ("heart", '❤'), ("heart_eyes", '😍'), ("heavy_check_mark", '✔'),
  ("heavy_exclamation_mark", '❗'), ("heavy_minus_sign", '➖'), ("heavy_multiplication_x", '✖'),
  ("heavy_plus_sign", '➕'), ("herb", '🌿'), ("horse", '🐴'), ("hourglass", '⌛'), ("house", '🏠'),
  ("hugs", '🤗'), ("hundred_points", '💯'), ("information", 'ℹ'), ("information_source", 'ℹ'),
  ("joy", '😂'), ("key", '🔑'), ("kiss", '💋'), ("label", '🏷'), ("laughing", '😆'), ("lemon", '🍋'),
  ("link", '🔗'), ("lion", '🦁'), ("lock", '🔒'), ("mag", '🔍'), ("mag_right", '🔎'), ("magnet", '🧲'),
  ("mailbox", '📫'), ("mega", '📣'), ("memo", '📝'), ("microscope", '🔬'), ("moneybag", '💰'),
  ("monkey", '🐒'), ("moon", '🌔'), ("mouse", '🐭'), ("muscle", '💪'), ("mute", '🔇'),
  ("name_badge", '📛'), ("new", '🆕'), ("no_entry", '⛔'), ("no_entry_sign", '🚫'), ("no_good", '🙅'),
  ("ok", '🆗'), ("ok_hand", '👌'), ("open_file_folder", '📂'), ("package", '📦'),
  ("page_facing_up", '📄'), ("panda_face", '🐼'), ("party_popper", '🎉'), ("paperclip", '📎'),
  ("partying_face", '🥳'), ("pear", '🍐'), ("penguin", '🐧'), ("pig", '🐷'), ("pile_of_poo", '💩'),
  ("pizza", '🍕'), ("point_right", '👉'), ("poop", '💩'), ("pray", '🙏'), ("pushpin", '📌'),
  ("question", '❓'), ("rabbit", '🐰'), ("raccoon", '🦝'), ("rainbow", '🌈'), ("rage", '😡'),
  ("raised_hands", '🙌'), ("recycle", '♻'), ("red_circle", '🔴'), ("red_heart", '❤'),
  ("registered", '®'), ("robot", '🤖'), ("rocket", '🚀'), ("rofl", '🤣'), ("rose", '🌹'),
  ("rotating_light", '🚨'), ("scissors", '✂'), ("scream", '😱'), ("scroll", '📜'),
  ("see_no_evil", '🙈'), ("shield", '🛡'), ("ship", '🚢'), ("skull", '💀'), ("sleeping", '😴'),
  ("smile", '😄'), ("smiley", '😃'), ("smiling_face_with_sunglasses", '😎'), ("smirk", '😏'),
  ("snail", '🐌'), ("snake", '🐍'), ("snowflake", '❄'), ("snowman", '⛄'), ("sob", '😭'), ("sos", '🆘'),
  ("sparkle", '❇'), ("sparkles", '✨'), ("sparkling_heart", '💖'), ("star", '⭐'), ("star2", '🌟'),
  ("stop_sign", '🛑'), ("stopwatch", '⏱'), ("sun_with_face", '🌞'), ("sunglasses", '😎'),
  ("sunny", '☀'), ("sweat_smile", '😅'), ("tada", '🎉'), ("telephone", '☎'), ("test_tube", '🧪'),
  ("thinking", '🤔'), ("thumbs_down", '👎'), ("thumbs_up", '👍'), ("thumbsdown", '👎'),
  ("thumbsup", '👍'), ("toilet", '🚽'), ("tomato", '🍅'), ("trophy", '🏆'), ("truck", '🚚'),
  ("turtle", '🐢'), ("umbrella", '☔'), ("unamused", '😒'), ("unicorn", '🦄'), ("unlock", '🔓'),
  ("up", '🆙'), ("v", '✌'), ("vampire", '🧛'), ("warning", '⚠'), ("watch", '⌚'), ("wave", '👋'),
  ("white_check_mark", '✅'), ("white_heavy_check_mark", '✅'), ("wink", '😉'), ("wrench", '🔧'),
  ("x", '❌'), ("yellow_heart", '💛'), ("yum", '😋'), ("zap", '⚡'), ("zzz", '💤') ]

end Redline.Text.Table
