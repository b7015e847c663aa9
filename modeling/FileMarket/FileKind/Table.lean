/-!
# File name extensions and media types

Which extensions belong to documents and which to media, and which `application`
types are those of documents. All entries are in lower case.
-/

namespace FileMarket.FileKind

/-- Extensions of documents. -/
def documentExtensions : List String := [
  "pdf", "doc", "docx", "odt", "rtf", "txt", "md", "tex", "epub", "xls", "xlsx", "ods", "csv",
  "ppt", "pptx", "odp", "pages", "numbers", "key"]

/-- Extensions whose first registered type is an image, sound or video. -/
def mediaExtensions : List String := [
  "3ds", "3g2", "3gp", "3gp2", "3gpp", "aa", "aac", "aax", "ac3", "adt", "adts", "aif", "aifc",
  "aiff", "apng", "art", "arw", "asf", "asr", "asx", "au", "avi", "avif", "avifs", "axa", "axv",
  "bmp", "btif", "caf", "cdda", "cgm", "cmx", "cod", "cr2", "cr3", "crw", "dib", "dif", "divx",
  "djv", "djvu", "dng", "dra", "dts", "dtshd", "dv", "dvb", "ecelp4800", "ecelp7470",
  "ecelp9600", "eol", "f4v", "fbs", "fh", "fh4", "fh5", "fh7", "fhc", "flac", "fli", "flv",
  "fpx", "fst", "fvt", "g3", "gif", "gsm", "h261", "h263", "h264", "hdr", "heic", "heics",
  "heif", "heifs", "ico", "ief", "ivf", "jfif", "jng", "jp2", "jpe", "jpeg", "jpf", "jpg",
  "jpg2", "jpgm", "jpgv", "jpm", "jpx", "jxl", "k25", "kar", "kdc", "ktx", "lsf", "lsx", "lvp",
  "m1v", "m2a", "m2t", "m2ts", "m2v", "m3a", "m3u", "m3u8", "m4a", "m4b", "m4p", "m4r", "m4u",
  "m4v", "mac", "mdi", "mid", "midi", "mj2", "mjp2", "mk3d", "mka", "mks", "mkv", "mmr", "mng",
  "mod", "mov", "movie", "mp2", "mp2a", "mp2v", "mp3", "mp4", "mp4a", "mp4v", "mpa", "mpe",
  "mpeg", "mpg", "mpg4", "mpga", "mpv2", "mqv", "mrw", "mts", "mxu", "nef", "npx", "nrw", "nsc",
  "oga", "ogg", "ogv", "opus", "orf", "pbm", "pct", "pef", "pgm", "pic", "pict", "pls", "png",
  "pnm", "pnt", "pntg", "pnz", "ppm", "pya", "pyv", "qt", "qti", "qtif", "ra", "raf", "ram",
  "ras", "raw", "rf", "rgb", "rip", "rlc", "rmi", "rpm", "rw2", "rwl", "s3m", "sd2", "sgi",
  "sid", "sil", "smd", "smv", "smx", "smz", "snd", "spx", "sr2", "svg", "svgz", "tga", "tif",
  "tiff", "ts", "tts", "uva", "uvg", "uvh", "uvi", "uvm", "uvp", "uvs", "uvu", "uvv", "uvva",
  "uvvg", "uvvh", "uvvi", "uvvm", "uvvp", "uvvs", "uvvu", "uvvv", "vbk", "viv", "vob", "wav",
  "wave", "wax", "wbmp", "wdp", "weba", "webm", "webp", "wm", "wma", "wmp", "wmv", "wmx", "wvx",
  "x3f", "xbm", "xif", "xm", "xpm", "xwd"]

/-- Subtypes of `application` that a document extension is registered for. -/
def documentSubtypes : List String := [
  "epub+zip", "msword", "pdf", "rtf", "vnd.ms-excel", "vnd.ms-powerpoint",
  "vnd.oasis.opendocument.presentation", "vnd.oasis.opendocument.spreadsheet",
  "vnd.oasis.opendocument.text", "vnd.openxmlformats-officedocument.presentationml.presentation",
  "vnd.openxmlformats-officedocument.spreadsheetml.sheet",
  "vnd.openxmlformats-officedocument.wordprocessingml.document", "x-tex"]

end FileMarket.FileKind
